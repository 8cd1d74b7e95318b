import Idax.Address
import Idax.Decompiler.Pseudocode
import Mathlib.Algebra.Group.Int.Defs

/-!
The two ways from a decompiled function to the addresses of its lines: the address of one line, and the
list of all pairs of an address and a line. Both read the array of items behind the header lines.
-/

namespace Idax
namespace Decompiler

structure Citem where
  ea : Address
  deriving DecidableEq, Repr

structure MappedCfunc extends Cfunc where
  hdrlines : Int32
  treeitems : List (Option Citem)
  deriving DecidableEq, Repr

structure MappedFunction where
  impl : Option (Option MappedCfunc)
  deriving DecidableEq, Repr

structure AddressMapping where
  address : Address
  lineNumber : Int
  deriving DecidableEq, Repr

/--
The value of an expression of type `int`. A sum that does not fit has none.
-/
def int? (n : Int) : Option Int :=
  if -2 ^ 31 ≤ n ∧ n < 2 ^ 31 then some n else none

def lineIndex (i : Nat) : Int :=
  (i : Int).bmod (2 ^ 32)

def itemAddress? (item : Option Citem) : Option Address :=
  match item with
  | none => none
  | some item => if item.ea = badAddress then none else some item.ea

namespace MappedCfunc

def addressAt? (cfunc : MappedCfunc) (i : Nat) : Option Address :=
  cfunc.treeitems[i]?.bind itemAddress?

def probe? (cfunc : MappedCfunc) (probe : Int) : Option Address :=
  if 0 ≤ probe then cfunc.addressAt? probe.toNat else none

def probeSteps : List Int :=
  [1, 2, 3, 4, 5].flatMap fun delta => [-delta, delta]

def probeAround (cfunc : MappedCfunc) (itemLine : Int) : List Int → Option (Option Address)
  | [] => some none
  | step :: steps => do
    let probe ← int? (itemLine + step)
    match cfunc.probe? probe with
    | some ea => some (some ea)
    | none => probeAround cfunc itemLine steps

def nearestAddress? (cfunc : MappedCfunc) (itemLine : Int) : Option (Option Address) :=
  match cfunc.probe? itemLine with
  | some ea => some (some ea)
  | none => cfunc.probeAround itemLine probeSteps

def lineToAddress (cfunc : MappedCfunc) (lineNumber : Int) : Option (Result Address) :=
  if lineNumber < 0 ∨ cfunc.sv.length ≤ lineNumber then
    some (.error (.validation "Line number out of range"))
  else do
    let itemLine ← int? (lineNumber - cfunc.hdrlines.toInt)
    match ← cfunc.nearestAddress? itemLine with
    | some ea => some (.ok ea)
    | none => some (.error (.notFound "No address mapping for line" (toString lineNumber)))

def addressMapFrom (hdr : Int)
    : (items : List (Option Citem)) → (i : Nat) → (result : List AddressMapping)
      → Option (List AddressMapping)
  | [], _, result => some result
  | item :: items, i, result =>
    match itemAddress? item with
    | none => addressMapFrom hdr items (i + 1) result
    | some address => do
      let lineNumber ← int? (lineIndex i + hdr)
      addressMapFrom hdr items (i + 1) (result ++ [{ address, lineNumber }])

def addressMap (cfunc : MappedCfunc) : Option (List AddressMapping) :=
  addressMapFrom cfunc.hdrlines.toInt cfunc.treeitems 0 []

end MappedCfunc

namespace MappedFunction

def cfunc? (self : MappedFunction) : Option MappedCfunc :=
  self.impl.bind id

/--
The outer `none` is an overflow, which has no defined result.
-/
def lineToAddress (self : MappedFunction) (lineNumber : Int) : Option (Result Address) :=
  match self.cfunc? with
  | none => some (.error (.internal "DecompiledFunction is empty"))
  | some cfunc => cfunc.lineToAddress lineNumber

def addressMap (self : MappedFunction) : Option (Result (List AddressMapping)) :=
  match self.cfunc? with
  | none => some (.error (.internal "DecompiledFunction is empty"))
  | some cfunc => cfunc.addressMap.map .ok

def Agrees (self : MappedFunction) : Prop :=
  ∃ r, self.addressMap = some r
    ∧ ∀ pairs, r = .ok pairs → ∀ m ∈ pairs,
        (0 ≤ m.lineNumber ∧ ∀ cfunc, self.cfunc? = some cfunc → m.lineNumber < cfunc.sv.length)
          ∧ self.lineToAddress m.lineNumber = some (.ok m.address)

end MappedFunction

namespace MappedCfunc

/--
Each item that has an address stands at the index of a line. An index that does not fit into an `int`
counts as the one it is narrowed to, whose item must then have the same address.
-/
def MapsLines (cfunc : MappedCfunc) : Prop :=
  ∀ i ea, cfunc.addressAt? i = some ea
    → 0 ≤ lineIndex i + cfunc.hdrlines.toInt
      ∧ lineIndex i + cfunc.hdrlines.toInt < cfunc.sv.length
      ∧ lineIndex i + cfunc.hdrlines.toInt < 2 ^ 31
      ∧ (lineIndex i = i ∨ cfunc.nearestAddress? (lineIndex i) = some (some ea))

theorem int?_of_range {n : Int} (hle : -2 ^ 31 ≤ n) (hlt : n < 2 ^ 31) : int? n = some n := by
  rw [int?, if_pos ⟨hle, hlt⟩]

theorem int?_eq_some {n m : Int} (h : int? n = some m) : m = n ∧ -2 ^ 31 ≤ n ∧ n < 2 ^ 31 := by
  unfold int? at h
  split at h
  . next hrange =>
    injection h with h
    exact ⟨h.symm, hrange⟩
  . cases h

theorem int?_lineIndex (i : Nat) : int? (lineIndex i) = some (lineIndex i) := by
  have hle := @Int.le_bmod i (2 ^ 32) (by decide)
  have hlt := @Int.bmod_lt i (2 ^ 32) (by decide)
  apply int?_of_range
  . exact hle
  . exact hlt

theorem nearestAddress?_natCast {cfunc : MappedCfunc} {i : Nat} {ea : Address}
    (h : cfunc.addressAt? i = some ea)
    : cfunc.nearestAddress? i = some (some ea) := by
  unfold nearestAddress? probe?
  rw [if_pos (Int.natCast_nonneg i), Int.toNat_natCast, h]

theorem addressMapFrom_iff (p : AddressMapping → Prop) (hdr : Int) (items : List (Option Citem)) (i : Nat)
    (result : List AddressMapping)
    : (∃ pairs, addressMapFrom hdr items i result = some pairs ∧ ∀ m ∈ pairs, p m)
        ↔ (∀ m ∈ result, p m)
          ∧ ∀ k ea, items[k]?.bind itemAddress? = some ea
              → ∃ line, int? (lineIndex (i + k) + hdr) = some line ∧ p ⟨ea, line⟩ := by
  induction items generalizing i result with
  | nil => simp [addressMapFrom]
  | cons item items ih =>
    have hsplit : (∀ k ea, (item :: items)[k]?.bind itemAddress? = some ea
          → ∃ line, int? (lineIndex (i + k) + hdr) = some line ∧ p ⟨ea, line⟩)
        ↔ (∀ ea, itemAddress? item = some ea
            → ∃ line, int? (lineIndex i + hdr) = some line ∧ p ⟨ea, line⟩)
          ∧ ∀ k ea, items[k]?.bind itemAddress? = some ea
            → ∃ line, int? (lineIndex (i + 1 + k) + hdr) = some line ∧ p ⟨ea, line⟩ := by
      constructor
      . intro h
        refine ⟨h 0, ?_⟩
        intro k
        have hk := h (k + 1)
        rw [← Nat.add_assoc, Nat.add_right_comm] at hk
        exact hk
      . intro ⟨hfirst, hrest⟩ k
        cases k with
        | zero => exact hfirst
        | succ k =>
          rw [← Nat.add_assoc, Nat.add_right_comm]
          exact hrest k
    rw [hsplit, addressMapFrom]
    cases haddress : itemAddress? item with
    | none =>
      rw [ih]
      simp
    | some address =>
      cases hline : int? (lineIndex i + hdr) with
      | none => simp
      | some line =>
        simp only [Option.bind_eq_bind, Option.bind_some, ih, List.forall_mem_append]
        simp only [List.forall_mem_singleton, and_assoc, Option.some.injEq, exists_eq_left', forall_eq']

theorem lineToAddress_lineIndex {cfunc : MappedCfunc} {i : Nat}
    (hnonneg : 0 ≤ lineIndex i + cfunc.hdrlines.toInt)
    (hlt : lineIndex i + cfunc.hdrlines.toInt < cfunc.sv.length) (ea : Address)
    : cfunc.lineToAddress (lineIndex i + cfunc.hdrlines.toInt) = some (.ok ea)
        ↔ cfunc.nearestAddress? (lineIndex i) = some (some ea) := by
  unfold lineToAddress
  rw [if_neg (by omega), Int.add_sub_cancel, int?_lineIndex, Option.bind_eq_bind, Option.bind_some]
  rcases cfunc.nearestAddress? (lineIndex i) with _ | _ | found <;> simp

theorem lineToAddress_iff (cfunc : MappedCfunc) (i : Nat) (ea : Address)
    (hea : cfunc.addressAt? i = some ea)
    : (∃ line, int? (lineIndex i + cfunc.hdrlines.toInt) = some line
          ∧ (0 ≤ line ∧ line < cfunc.sv.length) ∧ cfunc.lineToAddress line = some (.ok ea))
        ↔ 0 ≤ lineIndex i + cfunc.hdrlines.toInt
          ∧ lineIndex i + cfunc.hdrlines.toInt < cfunc.sv.length
          ∧ lineIndex i + cfunc.hdrlines.toInt < 2 ^ 31
          ∧ (lineIndex i = i ∨ cfunc.nearestAddress? (lineIndex i) = some (some ea)) := by
  constructor
  . rintro ⟨line, hline, ⟨hnonneg, hlt⟩, haddress⟩
    rcases int?_eq_some hline with ⟨heq, _, hfits⟩
    rw [heq] at hnonneg hlt haddress
    exact ⟨hnonneg, hlt, hfits, .inr ((lineToAddress_lineIndex hnonneg hlt ea).mp haddress)⟩
  . rintro ⟨hnonneg, hlt, hfits, hnear⟩
    refine ⟨_, int?_of_range (by omega) hfits, ⟨hnonneg, hlt⟩, ?_⟩
    rw [lineToAddress_lineIndex hnonneg hlt]
    rcases hnear with hindex | hnear
    . rw [hindex]
      exact nearestAddress?_natCast hea
    . exact hnear

end MappedCfunc

namespace MappedFunction

/--
The map and the lookup agree exactly when the items with an address stand at the lines of the text.
-/
theorem addressMap_agrees_iff (self : MappedFunction)
    : self.Agrees ↔ ∀ cfunc, self.cfunc? = some cfunc → cfunc.MapsLines := by
  unfold Agrees addressMap lineToAddress
  cases self.cfunc? with
  | none => simp
  | some cfunc =>
    have hmap := MappedCfunc.addressMapFrom_iff
      (fun m => (0 ≤ m.lineNumber ∧ m.lineNumber < cfunc.sv.length)
        ∧ cfunc.lineToAddress m.lineNumber = some (.ok m.address))
      cfunc.hdrlines.toInt cfunc.treeitems 0 []
    have hlines : cfunc.MapsLines
        ↔ ∀ i ea, cfunc.addressAt? i = some ea
          → ∃ line, int? (lineIndex i + cfunc.hdrlines.toInt) = some line
            ∧ (0 ≤ line ∧ line < cfunc.sv.length) ∧ cfunc.lineToAddress line = some (.ok ea) := by
      unfold MappedCfunc.MapsLines
      refine forall_congr' fun i => forall_congr' fun ea => ?_
      constructor
      . intro h hea
        exact (cfunc.lineToAddress_iff i ea hea).mpr (h hea)
      . intro h hea
        exact (cfunc.lineToAddress_iff i ea hea).mp (h hea)
    simp only [Option.some.injEq, forall_eq', hlines]
    simp only [Nat.zero_add, List.not_mem_nil, false_implies, implies_true, true_and] at hmap
    rw [MappedCfunc.addressMap]
    apply Iff.trans _ hmap
    cases MappedCfunc.addressMapFrom cfunc.hdrlines.toInt cfunc.treeitems 0 [] with
    | none => simp
    | some pairs => simp

def surplusItem : MappedFunction :=
  { impl := some (some { sv := [[]], hdrlines := 0, treeitems := [some ⟨0x1000⟩, some ⟨0x1004⟩] }) }

theorem not_agrees_surplusItem
    : surplusItem.addressMap = some (.ok [⟨0x1000, 0⟩, ⟨0x1004, 1⟩])
        ∧ surplusItem.lineToAddress 1 = some (.error (.validation "Line number out of range"))
        ∧ ¬surplusItem.Agrees := by
  have hmap : surplusItem.addressMap = some (.ok [⟨0x1000, 0⟩, ⟨0x1004, 1⟩]) := by
    rfl
  have hline : surplusItem.lineToAddress 1
      = some (.error (.validation "Line number out of range")) := by
    rfl
  refine ⟨hmap, hline, ?_⟩
  rintro ⟨r, hr, hagree⟩
  rw [hmap] at hr
  injection hr with hr
  have hlast := (hagree _ hr.symm ⟨0x1004, 1⟩ (by decide)).right
  rw [hline] at hlast
  cases hlast

end MappedFunction

end Decompiler
end Idax
