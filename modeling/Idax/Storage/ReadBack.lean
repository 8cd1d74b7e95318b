import Idax.Storage.Node

/-!
What is read from a node after a value was written to it. Empty values, long values and keys with a NUL
are told apart by the writers and the readers in different ways.
-/

namespace Idax
namespace Storage
namespace Node

open Netnode

variable (sdk : Sdk) (self : Node)

def IndexWriteKeeps (node' : Node) (index : Address) (tag : UInt8) : Prop :=
  (∀ index' tag', (index', tag') ≠ (index, tag)
      → node'.sup index' tag' = self.sup index' tag' ∧ node'.blob index' tag' = self.blob index' tag')
    ∧ ∀ key' tag', node'.hash sdk key' tag' = self.hash sdk key' tag'

def SupReadsBack (index : Address) (data : Span) (tag : UInt8) : Prop :=
  ∃ status node', self.setSup sdk index data tag = some (status, node')
    ∧ (status = ok → node'.sup index tag = .ok data.bytes ∧ self.IndexWriteKeeps sdk node' index tag)

def BlobReadsBack (index : Address) (data : Span) (tag : UInt8) : Prop :=
  ∃ status node', self.setBlob sdk index data tag = some (status, node')
    ∧ (status = ok → node'.blob index tag = .ok data.bytes ∧ self.IndexWriteKeeps sdk node' index tag)

def HashReadsBack (key value : Text) (tag : UInt8) (key' : Text) (tag' : UInt8) : Prop :=
  ∃ status node', self.setHash sdk key value tag = some (status, node')
    ∧ (status = ok → node'.hash sdk key tag = some (.ok value)
      ∧ ((key', tag') ≠ (key, tag) → node'.hash sdk key' tag' = self.hash sdk key' tag')
      ∧ ∀ index tag'', node'.sup index tag'' = self.sup index tag''
        ∧ node'.blob index tag'' = self.blob index tag'')

section Set

variable {self} {slot : Slot} {value : Span} {message : String}

theorem some_pair_iff {α β : Type _} (a : α) (b : β) (p : α → β → Prop)
    : (∃ a' b', some (a, b) = some (a', b') ∧ p a' b') ↔ p a b := by
  constructor
  . rintro ⟨a', b', heq, h⟩
    cases heq
    exact h
  . intro h
    exact ⟨a, b, rfl, h⟩

theorem set_iff (p : Node → Prop)
    : (∃ status node', self.set sdk slot value message = some (status, node')
          ∧ (status = ok → p node'))
        ↔ ∀ nn, self.impl = some nn → ∃ text, argument value = some text
          ∧ (sdk.accepts slot text = true → p { impl := some (Function.update nn slot (some text)) }) := by
  unfold set
  cases self.impl with
  | none =>
    rw [some_pair_iff]
    simp [ok]
  | some nn =>
    unfold store
    cases argument value with
    | none => simp
    | some text =>
      cases haccepts : sdk.accepts slot text with
      | false =>
        simp only [Option.bind_eq_bind, Option.bind_some, haccepts, Bool.false_eq_true, if_false]
        rw [Bool.not_false, if_pos rfl, some_pair_iff]
        simp [ok, haccepts]
      | true =>
        simp only [Option.bind_eq_bind, Option.bind_some, haccepts, if_true]
        rw [Bool.not_true, if_neg Bool.false_ne_true, some_pair_iff]
        simp [haccepts]

end Set

section Reads

variable (nn : Netnode) (slot : Slot) (text : Text)

theorem size_update_self : size (Function.update nn slot (some text)) slot = text.length := by
  rw [size, Function.update_self]

theorem contents_update_self : contents (Function.update nn slot (some text)) slot = text := by
  rw [contents, Function.update_self, Option.getD_some]

theorem sup_update_iff (index : Address) (tag : UInt8) (bytes : Text)
    : (Node.mk (some (Function.update nn (.index tag index) (some text)))).sup index tag = .ok bytes
        ↔ text ≠ [] ∧ text = bytes := by
  unfold sup
  simp only [size_update_self, contents_update_self]
  cases text with
  | nil => simp
  | cons b text =>
    rw [if_neg (by rw [List.length_cons]; omega)]
    simp

theorem blob_update_iff (index : Address) (tag : UInt8) (bytes : Text)
    : (Node.mk (some (Function.update nn (.index tag index) (some text)))).blob index tag = .ok bytes
        ↔ text = bytes := by
  unfold blob
  simp only [size_update_self, contents_update_self]
  rw [if_neg (by omega), Except.ok.injEq]

theorem hash_update_self (key : Text) (tag : UInt8)
    : (Node.mk (some (Function.update nn (.key tag (cStr key)) (some text)))).hash sdk key tag
        = some (.ok text) ↔ text ≠ [] ∧ text.length ≤ maxSpecSize := by
  unfold hash hashval
  simp only [Function.update_self]
  by_cases hfits : text.length ≤ maxSpecSize
  . simp only [if_pos hfits]
    cases text with
    | nil => simp
    | cons b text =>
      rw [if_neg (by rw [List.length_cons]; omega), if_neg (by omega), Int.toNat_natCast, List.take_length]
      simp only [hfits, ne_eq, reduceCtorEq, not_false_eq_true, and_self]
  -- a value that does not fit is never returned, whatever its size is said to be
  . simp only [if_neg hfits]
    constructor
    . intro h
      split at h
      . cases h
      . split at h
        . cases h
        . simp only [Option.some.injEq, Except.ok.injEq] at h
          have hlength := congrArg List.length h
          rw [List.length_take, List.length_take] at hlength
          omega
    . intro ⟨_, hle⟩
      exact absurd hle hfits

variable {nn} {nn' : Netnode}

theorem size_congr {slot : Slot} (h : nn' slot = nn slot) : size nn' slot = size nn slot := by
  rw [size, size, h]

theorem contents_congr {slot : Slot} (h : nn' slot = nn slot) : contents nn' slot = contents nn slot := by
  rw [contents, contents, h]

theorem sup_congr {index : Address} {tag : UInt8} (h : nn' (.index tag index) = nn (.index tag index))
    : (Node.mk (some nn')).sup index tag = (Node.mk (some nn)).sup index tag := by
  simp only [sup, size_congr h, contents_congr h]

theorem blob_congr {index : Address} {tag : UInt8} (h : nn' (.index tag index) = nn (.index tag index))
    : (Node.mk (some nn')).blob index tag = (Node.mk (some nn)).blob index tag := by
  simp only [blob, size_congr h, contents_congr h]

theorem hash_congr {key : Text} {tag : UInt8}
    (h : nn' (.key tag (cStr key)) = nn (.key tag (cStr key)))
    : (Node.mk (some nn')).hash sdk key tag = (Node.mk (some nn)).hash sdk key tag := by
  unfold hash hashval
  simp only [h]

end Reads

section Conditions

def Refused (slot : Slot) (value : Span) : Prop :=
  ∃ text, argument value = some text ∧ sdk.accepts slot text = false

theorem argument_of_ne_nil {value : Span} (h : value.bytes ≠ []) : argument value = some value.bytes := by
  rw [argument, if_neg]
  rw [List.length_eq_zero_iff]
  exact h

theorem argument_of_nil {value : Span} (h : value.bytes = [])
    : argument value = value.atData.map (·.val) := by
  rw [argument, if_pos]
  rw [List.length_eq_zero_iff]
  exact h

theorem indexWriteKeeps_update (nn : Netnode) (text : Text) (index : Address) (tag : UInt8)
    : (Node.mk (some nn)).IndexWriteKeeps sdk
        (Node.mk (some (Function.update nn (.index tag index) (some text)))) index tag := by
  constructor
  . intro index' tag' hne
    have hslot : Slot.index tag' index' ≠ .index tag index := by
      intro heq
      injection heq with htag hindex
      rw [htag, hindex] at hne
      exact hne rfl
    have hkept := Function.update_of_ne hslot (some text) nn
    exact ⟨sup_congr hkept, blob_congr hkept⟩
  . intro key' tag'
    apply hash_congr
    apply Function.update_of_ne
    simp

theorem supReadsBack_iff (index : Address) (data : Span) (tag : UInt8)
    : self.SupReadsBack sdk index data tag
        ↔ self.impl = none ∨ data.bytes ≠ [] ∨ Refused sdk (.index tag index) data := by
  unfold SupReadsBack setSup
  rw [set_iff]
  rcases self with ⟨_ | nn⟩
  . simp
  . simp only [Option.some.injEq, forall_eq', sup_update_iff, indexWriteKeeps_update, and_true]
    rw [or_iff_right (by simp)]
    constructor
    . intro ⟨text, hargument, hread⟩
      by_cases hempty : data.bytes = []
      . refine .inr ⟨text, hargument, ?_⟩
        rw [← Bool.not_eq_true]
        intro haccepts
        apply (hread haccepts).left
        rw [(hread haccepts).right, hempty]
      . exact .inl hempty
    . rintro (hbytes | ⟨text, hargument, hrefused⟩)
      . exact ⟨data.bytes, argument_of_ne_nil hbytes, fun _ => ⟨hbytes, rfl⟩⟩
      . refine ⟨text, hargument, ?_⟩
        rw [hrefused]
        exact fun h => absurd h Bool.false_ne_true

theorem blobReadsBack_iff (index : Address) (data : Span) (tag : UInt8)
    : self.BlobReadsBack sdk index data tag
        ↔ self.impl = none ∨ data.bytes ≠ [] ∨ data.atData = some ⟨[], List.not_mem_nil⟩
          ∨ Refused sdk (.index tag index) data := by
  unfold BlobReadsBack setBlob
  rw [set_iff]
  rcases self with ⟨_ | nn⟩
  . simp
  . simp only [Option.some.injEq, forall_eq', blob_update_iff, indexWriteKeeps_update, and_true]
    rw [or_iff_right (by simp)]
    constructor
    . intro ⟨text, hargument, hread⟩
      by_cases hempty : data.bytes = []
      . right
        cases haccepts : sdk.accepts (.index tag index) text with
        | false => exact .inr ⟨text, hargument, haccepts⟩
        | true =>
          left
          rw [argument_of_nil hempty, Option.map_eq_some_iff] at hargument
          rcases hargument with ⟨s, hs, rfl⟩
          rw [hs]
          congr
          apply Subtype.ext
          rw [hread haccepts, hempty]
      . exact .inl hempty
    . rintro (hbytes | hempty | ⟨text, hargument, hrefused⟩)
      . exact ⟨data.bytes, argument_of_ne_nil hbytes, fun _ => rfl⟩
      . by_cases hbytes : data.bytes = []
        . refine ⟨[], ?_, fun _ => hbytes.symm⟩
          rw [argument_of_nil hbytes, hempty]
          rfl
        . exact ⟨data.bytes, argument_of_ne_nil hbytes, fun _ => rfl⟩
      . refine ⟨text, hargument, ?_⟩
        rw [hrefused]
        exact fun h => absurd h Bool.false_ne_true

theorem argument_cStr (value : Text)
    : argument { bytes := value, atData := some (cStr value) } = some value := by
  by_cases hempty : value = []
  . rw [hempty]
    rfl
  . exact argument_of_ne_nil hempty

theorem hash_ok_congr {key key' : Text} (h : cStr key' = cStr key) (tag : UInt8) (value : Text)
    : self.hash sdk key' tag = some (.ok value) ↔ self.hash sdk key tag = some (.ok value) := by
  unfold hash
  cases self.impl with
  | none => rfl
  | some nn =>
    -- the two keys differ at most in the error that names them
    simp only [h]
    split
    . simp
    . rfl

theorem hash_update_eq_iff (nn : Netnode) {key value : Text} (key' : Text) (tag tag' : UInt8)
    (hvalue : value ≠ [] ∧ value.length ≤ maxSpecSize)
    : (Node.mk (some (Function.update nn (.key tag (cStr key)) (some value)))).hash sdk key' tag'
          = (Node.mk (some nn)).hash sdk key' tag'
        ↔ tag' ≠ tag ∨ CString.read key' ≠ CString.read key
          ∨ (Node.mk (some nn)).hash sdk key tag = some (.ok value) := by
  by_cases hslot : Slot.key tag' (cStr key') = .key tag (cStr key)
  . injection hslot with htag hkey
    have hread : CString.read key' = CString.read key := congrArg Subtype.val hkey
    subst htag
    have hwritten := (hash_ok_congr sdk _ hkey tag' value).mpr
      ((hash_update_self sdk nn value key tag').mpr hvalue)
    rw [hwritten, eq_comm, hash_ok_congr sdk _ hkey]
    simp [hread]
  . have hkept := hash_congr sdk (Function.update_of_ne hslot (some value) nn)
    have hother : tag' ≠ tag ∨ CString.read key' ≠ CString.read key := by
      by_contra hsame
      rw [not_or, not_not, not_not] at hsame
      apply hslot
      rw [hsame.left]
      congr 1
      exact Subtype.ext hsame.right
    rw [hkept, ← or_assoc]
    simp [hother]

theorem hashReadsBack_iff (key value : Text) (tag : UInt8) (key' : Text) (tag' : UInt8)
    : self.HashReadsBack sdk key value tag key' tag'
        ↔ self.impl = none ∨ sdk.accepts (.key tag (cStr key)) value = false
          ∨ (value ≠ [] ∧ value.length ≤ maxSpecSize)
            ∧ ((key', tag') = (key, tag) ∨ tag' ≠ tag ∨ CString.read key' ≠ CString.read key
              ∨ self.hash sdk key tag = some (.ok value)) := by
  unfold HashReadsBack setHash
  rw [set_iff]
  rcases self with ⟨_ | nn⟩
  . simp
  . have hindexed : ∀ index tag'',
        (Node.mk (some (Function.update nn (.key tag (cStr key)) (some value)))).sup index tag''
            = (Node.mk (some nn)).sup index tag''
          ∧ (Node.mk (some (Function.update nn (.key tag (cStr key)) (some value)))).blob index tag''
            = (Node.mk (some nn)).blob index tag'' := by
      intro index tag''
      have hslot : Slot.index tag'' index ≠ .key tag (cStr key) := by
        simp
      have hkept := Function.update_of_ne hslot (some value) nn
      exact ⟨sup_congr hkept, blob_congr hkept⟩
    simp only [Option.some.injEq, forall_eq', argument_cStr, exists_eq_left', hash_update_self, hindexed,
      and_self, implies_true, and_true]
    rw [or_iff_right (by simp)]
    cases sdk.accepts (.key tag (cStr key)) value with
    | false => simp
    | true =>
      simp only [forall_true_left, Bool.true_eq_false, false_or]
      apply and_congr_right
      intro hvalue
      rw [hash_update_eq_iff sdk nn key' tag tag' hvalue]
      by_cases hsame : (key', tag') = (key, tag)
      . simp [hsame]
      . simp only [hsame, ne_eq, not_false_eq_true, forall_true_left, false_or]

end Conditions

/--
What a write that returns success leaves behind, for each of the three pairs of functions. Of the other
keys, `key'` with `tag'` is any.
-/
theorem storage_readsBack_iff (sdk : Sdk) (self : Node) (tag : UInt8)
    : (∀ (index : Address) (data : Span),
          self.SupReadsBack sdk index data tag
            ↔ self.impl = none ∨ data.bytes ≠ [] ∨ Refused sdk (.index tag index) data)
        ∧ (∀ (index : Address) (data : Span),
          self.BlobReadsBack sdk index data tag
            ↔ self.impl = none ∨ data.bytes ≠ [] ∨ data.atData = some ⟨[], List.not_mem_nil⟩
              ∨ Refused sdk (.index tag index) data)
        ∧ ∀ (key value key' : Text) (tag' : UInt8),
          self.HashReadsBack sdk key value tag key' tag'
            ↔ self.impl = none ∨ sdk.accepts (.key tag (cStr key)) value = false
              ∨ (value ≠ [] ∧ value.length ≤ maxSpecSize)
                ∧ ((key', tag') = (key, tag) ∨ tag' ≠ tag ∨ CString.read key' ≠ CString.read key
                  ∨ self.hash sdk key tag = some (.ok value)) := by
  refine ⟨?_, ?_, ?_⟩
  . intro index data
    apply supReadsBack_iff
  . intro index data
    apply blobReadsBack_iff
  . intro key value key' tag'
    apply hashReadsBack_iff

def acceptingSdk : Sdk where
  accepts _ _ := true
  longSize text := text.length

def emptyNode : Node where
  impl := some fun _ => none

theorem not_readsBack_emptyValue
    : ¬emptyNode.HashReadsBack acceptingSdk [0x6b] [] 0x48 [0x6b] 0x48
        ∧ ¬emptyNode.SupReadsBack acceptingSdk 200 { bytes := [], atData := some (cStr []) } 0x53
        ∧ ¬emptyNode.HashReadsBack acceptingSdk [0x61] [0x76] 0x48 [0x61, 0, 0x62] 0x48 := by
  refine ⟨?_, ?_, ?_⟩
  . rw [hashReadsBack_iff]
    simp [emptyNode, acceptingSdk]
  . rw [supReadsBack_iff]
    simp [emptyNode, acceptingSdk, Refused]
  . rw [hashReadsBack_iff]
    simp [emptyNode, acceptingSdk, hash, hashval, CString.read, maxSpecSize]

end Node
end Storage
end Idax
