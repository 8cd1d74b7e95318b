import Mathlib.Data.List.Pairwise
import Idax.Types.Trim

/-!
The layout that the lines of a trimmed struct describe. Padding is counted in bytes, so the bits that
are left in the last byte before a bitfield are not filled: where a bitfield does not begin right
behind the member that is printed before it, it moves.
-/

namespace Idax
namespace Types

section Layout

/--
The members are sorted and do not overlap, lie inside of the struct, and all but bitfields consist of
whole bytes.
-/
structure UdtTypeData.Layout (udt : UdtTypeData) : Prop where
  sorted : udt.members.Pairwise fun m m' => m.offset + m.size ≤ m'.offset
  inside : ∀ m ∈ udt.members, m.offset + m.size ≤ 8 * udt.totalSize
  bytes : ∀ m ∈ udt.members, m.isBitfield = false → 8 ∣ m.offset ∧ 8 ∣ m.size

namespace TypeDeclarationFormatter

def Emission.layout : Emission → List Line
  | .udt _ _ _ _ lines => lines
  | .blob _ _ totalSize => [{ member := none, byteOffset := 0, byteSize := totalSize }]
  | _ => []

namespace Line

variable (udt : UdtTypeData)

def declared (line : Line) : Option Udm :=
  line.member.bind fun index => udt.members[index]?

def start (line : Line) : Nat :=
  match line.declared udt with
  | some m => m.offset
  | none => 8 * line.byteOffset

def width (line : Line) : Nat :=
  match line.declared udt with
  | some m => m.size
  | none => 8 * line.byteSize

def Covers (line : Line) (bit : Nat) : Prop :=
  line.start udt ≤ bit ∧ bit < line.start udt + line.width udt

def Apart (line line' : Line) : Prop :=
  ∀ bit, ¬(line.Covers udt bit ∧ line'.Covers udt bit)

/--
Where a line comes to lie behind `pos` bits: a bitfield right there, anything else at the next byte.
-/
def place (pos : Nat) (line : Line) : Nat :=
  match line.declared udt with
  | some m => if m.isBitfield then pos else 8 * ((pos + 7) / 8)
  | none => 8 * ((pos + 7) / 8)

end Line

def LaidOut (udt : UdtTypeData) : (pos : Nat) → List Line → Prop
  | pos, [] => 8 * ((pos + 7) / 8) = 8 * udt.totalSize
  | pos, line :: lines =>
    (line.member.isSome → line.place udt pos = line.start udt)
      ∧ LaidOut udt (line.place udt pos + line.width udt) lines

structure ByteFaithful (udt : UdtTypeData) (lines : List Line) : Prop where
  padding : ∀ pad ∈ lines, pad.member = none → ∀ line ∈ lines, line.member.isSome →
    pad.Apart udt line
  increasing : lines.Pairwise fun line line' =>
    line.start udt ≤ line'.start udt ∧ line.start udt + line.width udt ≤ line'.start udt
  covered : ∀ byte < udt.totalSize, ∃ line ∈ lines, ∃ bit, bit / 8 = byte ∧ line.Covers udt bit
  laidOut : LaidOut udt 0 lines

/--
Each bitfield begins at the end of the member before it, or at a byte with a whole byte between them.
-/
def BitfieldsJoin : (stop : Nat) → List Udm → Prop
  | _, [] => True
  | stop, m :: ms =>
    (m.isBitfield → m.offset = stop ∨ 8 ∣ m.offset ∧ 8 * ((stop + 7) / 8) < m.offset)
      ∧ BitfieldsJoin (m.offset + m.size) ms

end TypeDeclarationFormatter

end Layout

section Lines

namespace TypeDeclarationFormatter

variable {fmt : TypeDeclarationFormatter} {udt : UdtTypeData}

def bytesUpTo (bit : Nat) : Nat :=
  (bit + 7) / 8

structure Behind (udt : UdtTypeData) (stop : Nat) (kept : List (Nat × Udm)) : Prop where
  stop_le : stop ≤ 8 * udt.totalSize
  declared : ∀ item ∈ kept, udt.members[item.fst]? = some item.snd
  sorted : kept.Pairwise fun item item' => item.snd.offset + item.snd.size ≤ item'.snd.offset
  behind : ∀ item ∈ kept, stop ≤ item.snd.offset
  inside : ∀ item ∈ kept, item.snd.offset + item.snd.size ≤ 8 * udt.totalSize
  bytes : ∀ item ∈ kept, item.snd.isBitfield = false → 8 ∣ item.snd.offset ∧ 8 ∣ item.snd.size

theorem Behind.tail {stop i : Nat} {m : Udm} {kept : List (Nat × Udm)}
    (h : Behind udt stop ((i, m) :: kept)) : Behind udt (m.offset + m.size) kept where
  stop_le := h.inside (i, m) List.mem_cons_self
  declared item hitem := h.declared item (List.mem_cons_of_mem _ hitem)
  sorted := (List.pairwise_cons.mp h.sorted).right
  behind := (List.pairwise_cons.mp h.sorted).left
  inside item hitem := h.inside item (List.mem_cons_of_mem _ hitem)
  bytes item hitem := h.bytes item (List.mem_cons_of_mem _ hitem)

theorem behind_keepIndices (hlayout : udt.Layout) (accessed : Option (List Int))
    : Behind udt 0 (keepIndices accessed udt) := by
  have hmem : ∀ item ∈ keepIndices accessed udt, udt.members[item.fst]? = some item.snd := by
    intro ⟨i, m⟩ hitem
    rw [keepIndices_eq, List.mem_map] at hitem
    rcases hitem with ⟨⟨m', i'⟩, hfilter, heq⟩
    cases heq
    apply List.mem_zipIdx_iff_getElem?.mp (List.mem_filter.mp hfilter).left
  have hmembers : ∀ item ∈ keepIndices accessed udt, item.snd ∈ udt.members :=
    fun item hitem => List.mem_iff_getElem?.mpr ⟨item.fst, hmem item hitem⟩
  constructor
  . apply Nat.zero_le
  . apply hmem
  . rw [keepIndices_eq, List.pairwise_map]
    apply List.Pairwise.filter
    have hsorted := hlayout.sorted
    rw [← List.zipIdx_map_fst 0 udt.members, List.pairwise_map] at hsorted
    apply hsorted
  . simp
  . exact fun item hitem => hlayout.inside _ (hmembers item hitem)
  . exact fun item hitem => hlayout.bytes _ (hmembers item hitem)

def paddingLine (src dst : Nat) : Line :=
  { member := none, byteOffset := src, byteSize := dst - src, emitComment := true }

theorem trimmedLines_nil (total cursor : Nat)
    : fmt.trimmedLines total cursor []
        = if cursor < total then [paddingLine cursor total] else [] := by
  unfold trimmedLines paddingLines
  split
  . rw [if_neg (by omega)]
    rfl
  . rfl

theorem trimmedLines_cons {stop i : Nat} {m : Udm} {kept : List (Nat × Udm)}
    (h : Behind udt stop ((i, m) :: kept))
    : fmt.trimmedLines udt.totalSize (bytesUpTo stop) ((i, m) :: kept)
        = (if bytesUpTo stop < m.offset / 8 then [paddingLine (bytesUpTo stop) (m.offset / 8)] else [])
          ++ fmt.memberLine i m
            :: fmt.trimmedLines udt.totalSize (bytesUpTo (m.offset + m.size)) kept := by
  have hcursor : max (bytesUpTo stop) (memberEnd m) = bytesUpTo (m.offset + m.size) := by
    have hbehind := h.behind (i, m) List.mem_cons_self
    have hbytes := h.bytes (i, m) List.mem_cons_self
    dsimp only at hbehind hbytes
    unfold memberEnd bytesUpTo
    split
    . omega
    . next hbit =>
      have haligned := hbytes (by simpa using hbit)
      omega
  rw [trimmedLines, hcursor]
  apply congrArg (· ++ _)
  unfold paddingLines
  split
  . rw [if_neg (by omega)]
    rfl
  . rfl

section Line

variable {i : Nat} {m : Udm}

theorem declared_memberLine (h : udt.members[i]? = some m)
    : (fmt.memberLine i m).declared udt = some m := by
  rw [Line.declared, memberLine_member, Option.bind_some, h]

theorem start_memberLine (h : udt.members[i]? = some m)
    : (fmt.memberLine i m).start udt = m.offset := by
  rw [Line.start, declared_memberLine h]

theorem width_memberLine (h : udt.members[i]? = some m)
    : (fmt.memberLine i m).width udt = m.size := by
  rw [Line.width, declared_memberLine h]

theorem place_memberLine (h : udt.members[i]? = some m) (pos : Nat)
    : (fmt.memberLine i m).place udt pos = if m.isBitfield then pos else 8 * bytesUpTo pos := by
  rw [Line.place, declared_memberLine h]
  rfl

theorem start_paddingLine (src dst : Nat) : (paddingLine src dst).start udt = 8 * src := rfl

theorem width_paddingLine (src dst : Nat) : (paddingLine src dst).width udt = 8 * (dst - src) := rfl

theorem place_paddingLine (src dst pos : Nat)
    : (paddingLine src dst).place udt pos = 8 * bytesUpTo pos := rfl

end Line

theorem le_start_of_mem {stop : Nat} {kept : List (Nat × Udm)} (h : Behind udt stop kept)
    : ∀ line ∈ fmt.trimmedLines udt.totalSize (bytesUpTo stop) kept, stop ≤ line.start udt := by
  induction kept generalizing stop with
  | nil =>
    intro line hline
    rw [trimmedLines_nil] at hline
    split at hline
    . rw [List.mem_singleton.mp hline, start_paddingLine, bytesUpTo]
      omega
    . cases hline
  | cons item kept ih =>
    rcases item with ⟨i, m⟩
    have hbehind : stop ≤ m.offset := h.behind (i, m) List.mem_cons_self
    have hdeclared : udt.members[i]? = some m := h.declared (i, m) List.mem_cons_self
    intro line hline
    rw [trimmedLines_cons h, List.mem_append, List.mem_cons] at hline
    rcases hline with hpad | heq | hrest
    . split at hpad
      . rw [List.mem_singleton.mp hpad, start_paddingLine, bytesUpTo]
        omega
      . cases hpad
    . rw [heq, start_memberLine hdeclared]
      apply hbehind
    . have hle := ih h.tail line hrest
      omega

theorem increasing_trimmedLines {stop : Nat} {kept : List (Nat × Udm)} (h : Behind udt stop kept)
    : (fmt.trimmedLines udt.totalSize (bytesUpTo stop) kept).Pairwise fun line line' =>
        line.start udt ≤ line'.start udt ∧ line.start udt + line.width udt ≤ line'.start udt := by
  induction kept generalizing stop with
  | nil =>
    rw [trimmedLines_nil]
    split
    . apply List.pairwise_singleton
    . apply List.Pairwise.nil
  | cons item kept ih =>
    rcases item with ⟨i, m⟩
    have hdeclared : udt.members[i]? = some m := h.declared (i, m) List.mem_cons_self
    have hrest : ∀ line ∈ fmt.trimmedLines udt.totalSize (bytesUpTo (m.offset + m.size)) kept,
        m.offset + m.size ≤ line.start udt :=
      le_start_of_mem h.tail
    have hcons : ∀ line ∈ fmt.memberLine i m
        :: fmt.trimmedLines udt.totalSize (bytesUpTo (m.offset + m.size)) kept,
        m.offset ≤ line.start udt := by
      intro line hline
      rw [List.mem_cons] at hline
      cases hline with
      | inl heq =>
        rw [heq, start_memberLine hdeclared]
      | inr hmem =>
        apply Nat.le_trans (Nat.le_add_right _ _) (hrest line hmem)
    rw [trimmedLines_cons h, List.pairwise_append, List.pairwise_cons]
    refine ⟨?_, ⟨?_, ih h.tail⟩, ?_⟩
    . split
      . apply List.pairwise_singleton
      . apply List.Pairwise.nil
    . intro line hline
      have hle := hrest line hline
      rw [start_memberLine hdeclared, width_memberLine hdeclared]
      apply And.intro (Nat.le_trans (Nat.le_add_right _ _) hle) hle
    . intro pad hpad line hline
      split at hpad
      . next hlt =>
        rw [List.mem_singleton.mp hpad, start_paddingLine, width_paddingLine]
        have hle := hcons line hline
        omega
      . cases hpad

theorem padding_apart {lines : List Line}
    (h : lines.Pairwise fun line line' =>
      line.start udt ≤ line'.start udt ∧ line.start udt + line.width udt ≤ line'.start udt)
    : ∀ pad ∈ lines, pad.member = none → ∀ line ∈ lines, line.member.isSome →
        pad.Apart udt line := by
  have hapart : lines.Pairwise (Line.Apart udt) := by
    apply h.imp
    intro line line' hle bit ⟨hbit, hbit'⟩
    unfold Line.Covers at hbit hbit'
    omega
  have hsymm : Std.Symm (Line.Apart udt) := ⟨fun _ _ hnot bit hboth => hnot bit hboth.symm⟩
  intro pad hpad hnone line hline hsome
  apply hapart.forall hpad hline
  intro heq
  rw [← heq, hnone] at hsome
  cases hsome

theorem laidOut_trimmedLines_iff {stop : Nat} {kept : List (Nat × Udm)} (h : Behind udt stop kept)
    : LaidOut udt stop (fmt.trimmedLines udt.totalSize (bytesUpTo stop) kept)
        ↔ BitfieldsJoin stop (kept.map (·.snd)) := by
  induction kept generalizing stop with
  | nil =>
    have hle := h.stop_le
    rw [trimmedLines_nil]
    simp only [List.map_nil, BitfieldsJoin, iff_true]
    split
    . next hlt =>
      simp only [LaidOut, place_paddingLine, width_paddingLine, bytesUpTo] at hlt ⊢
      refine ⟨by simp [paddingLine], by omega⟩
    . next hlt =>
      simp only [LaidOut, bytesUpTo] at hlt ⊢
      omega
  | cons item kept ih =>
    rcases item with ⟨i, m⟩
    have hbehind : stop ≤ m.offset := h.behind (i, m) List.mem_cons_self
    have hbytes := h.bytes (i, m) List.mem_cons_self
    have hdeclared : udt.members[i]? = some m := h.declared (i, m) List.mem_cons_self
    have hmember : (fmt.memberLine i m).member.isSome := by
      rw [memberLine_member]
      rfl
    have hplaced : ∀ pos, LaidOut udt pos (fmt.memberLine i m
          :: fmt.trimmedLines udt.totalSize (bytesUpTo (m.offset + m.size)) kept)
        ↔ (fmt.memberLine i m).place udt pos = m.offset
          ∧ BitfieldsJoin (m.offset + m.size) (kept.map (·.snd)) := by
      intro pos
      rw [LaidOut, start_memberLine hdeclared, width_memberLine hdeclared, ← ih h.tail]
      simp only [hmember, forall_const]
      apply and_congr_right
      intro hplace
      rw [hplace]
    rw [trimmedLines_cons h, List.map_cons, BitfieldsJoin]
    split
    . next hlt =>
      rw [List.singleton_append, LaidOut, place_paddingLine, width_paddingLine, hplaced,
        place_memberLine hdeclared]
      simp only [paddingLine, Option.isSome_none, Bool.false_eq_true, false_implies, true_and]
      apply and_congr_left
      intro _
      dsimp only at hbytes
      unfold bytesUpTo at hlt ⊢
      cases hbit : m.isBitfield with
      | true =>
        simp only [if_true, true_implies]
        omega
      | false =>
        have haligned := hbytes hbit
        simp only [Bool.false_eq_true, if_false, false_implies, iff_true]
        omega
    . next hlt =>
      rw [List.nil_append, hplaced, place_memberLine hdeclared]
      apply and_congr_left
      intro _
      dsimp only at hbytes
      unfold bytesUpTo at hlt ⊢
      cases hbit : m.isBitfield with
      | true =>
        simp only [if_true, true_implies]
        omega
      | false =>
        have haligned := hbytes hbit
        simp only [Bool.false_eq_true, if_false, false_implies, iff_true]
        omega

theorem covered_trimmedLines {stop : Nat} {kept : List (Nat × Udm)} (h : Behind udt stop kept)
    (hjoin : BitfieldsJoin stop (kept.map (·.snd)))
    : ∀ byte, bytesUpTo stop ≤ byte → byte < udt.totalSize →
        ∃ line ∈ fmt.trimmedLines udt.totalSize (bytesUpTo stop) kept,
          ∃ bit, bit / 8 = byte ∧ line.Covers udt bit := by
  induction kept generalizing stop with
  | nil =>
    intro byte hle hlt
    rw [trimmedLines_nil, if_pos (by omega)]
    refine ⟨_, List.mem_singleton_self _, 8 * byte, by omega, ?_⟩
    rw [Line.Covers, start_paddingLine, width_paddingLine]
    omega
  | cons item kept ih =>
    rcases item with ⟨i, m⟩
    intro byte hle hlt
    have hbehind : stop ≤ m.offset := h.behind (i, m) List.mem_cons_self
    have hbytes := h.bytes (i, m) List.mem_cons_self
    have hdeclared : udt.members[i]? = some m := h.declared (i, m) List.mem_cons_self
    rw [List.map_cons, BitfieldsJoin] at hjoin
    rw [trimmedLines_cons h]
    rcases Nat.lt_or_ge byte (m.offset / 8) with hbefore | hfrom
    . refine ⟨paddingLine (bytesUpTo stop) (m.offset / 8), ?_, 8 * byte, by omega, ?_⟩
      . rw [if_pos (by omega)]
        apply List.mem_append_left _ (List.mem_singleton_self _)
      . rw [Line.Covers, start_paddingLine, width_paddingLine]
        omega
    . rcases Nat.lt_or_ge byte (bytesUpTo (m.offset + m.size)) with hinside | hbehind'
      . refine ⟨fmt.memberLine i m, ?_, max (8 * byte) m.offset, ?_, ?_⟩
        . apply List.mem_append_right _ List.mem_cons_self
        . unfold bytesUpTo at hinside
          omega
        . rw [Line.Covers, start_memberLine hdeclared, width_memberLine hdeclared]
          have hjoin := hjoin.left
          dsimp only at hbytes hjoin
          unfold bytesUpTo at hle hinside
          cases hbit : m.isBitfield with
          | true =>
            have hjoin := hjoin hbit
            omega
          | false =>
            have haligned := hbytes hbit
            omega
      . rcases ih h.tail hjoin.right byte hbehind' hlt with ⟨line, hline, hbit⟩
        refine ⟨line, List.mem_append_right _ (List.mem_cons_of_mem _ hline), hbit⟩

theorem accessed_eq_some {name : String} {offsets : List Int} (hstruct : udt.isUnion = false)
    (htrim : fmt.options.trimUnreferenced = true)
    (hused : usedOffsetsMap fmt.options name = some offsets) (hne : offsets ≠ [])
    : fmt.accessed udt name = some offsets := by
  simp [accessed, hstruct, htrim, hused, hne]

theorem layout_emitUdt {name : String} {offsets : List Int}
    (hudt : fmt.til.udtDetails? (.named name) = some udt)
    (haccessed : fmt.accessed udt name = some offsets)
    : (fmt.emitUdt (.named name) name).layout
        = if keepIndices (some offsets) udt = [] then
            [{ member := none, byteOffset := 0, byteSize := udt.totalSize }]
          else
            fmt.trimmedLines udt.totalSize (bytesUpTo 0) (keepIndices (some offsets) udt) := by
  unfold emitUdt
  simp only [hudt, haccessed, Option.isNone_some, Option.isSome_some, Bool.and_false,
    Bool.false_eq_true, if_false, Bool.true_and, List.isEmpty_iff, if_true]
  split <;> rfl

theorem byteFaithful_blob
    : ByteFaithful udt [{ member := none, byteOffset := 0, byteSize := udt.totalSize }] where
  padding := by simp
  increasing := by apply List.pairwise_singleton
  covered byte hbyte := by
    refine ⟨_, List.mem_singleton_self _, 8 * byte, by omega, ?_⟩
    simp only [Line.Covers, Line.start, Line.width, Line.declared, Option.bind_none]
    omega
  laidOut := by
    simp only [LaidOut, Line.place, Line.width, Line.declared, Option.bind_none]
    refine ⟨by simp, by omega⟩

theorem byteFaithful_trimmedLines_iff {kept : List (Nat × Udm)} (h : Behind udt 0 kept)
    : ByteFaithful udt (fmt.trimmedLines udt.totalSize (bytesUpTo 0) kept)
        ↔ BitfieldsJoin 0 (kept.map (·.snd)) := by
  rw [← laidOut_trimmedLines_iff h]
  constructor
  . apply ByteFaithful.laidOut
  . intro hlaid
    have hjoin := (laidOut_trimmedLines_iff h).mp hlaid
    refine ⟨padding_apart (increasing_trimmedLines h), increasing_trimmedLines h, ?_, hlaid⟩
    intro byte hbyte
    apply covered_trimmedLines h hjoin byte (Nat.zero_le _) hbyte

/--
A trimmed struct is printed with the layout that it has exactly if each kept bitfield begins at the
end of the kept member before it or behind whole bytes that are padding.
-/
theorem byteFaithful_emitUdt_iff {name : String} {offsets : List Int}
    (hudt : fmt.til.udtDetails? (.named name) = some udt) (hstruct : udt.isUnion = false)
    (hlayout : udt.Layout) (htrim : fmt.options.trimUnreferenced = true)
    (hused : usedOffsetsMap fmt.options name = some offsets) (hne : offsets ≠ [])
    : ByteFaithful udt (fmt.emitUdt (.named name) name).layout
        ↔ BitfieldsJoin 0 ((keepIndices (some offsets) udt).map (·.snd)) := by
  rw [layout_emitUdt hudt (accessed_eq_some hstruct htrim hused hne)]
  split
  . next hnone =>
    rw [hnone]
    exact iff_of_true byteFaithful_blob trivial
  . apply byteFaithful_trimmedLines_iff (behind_keepIndices hlayout (some offsets))

def flags (offsets : List Int) : TypeDeclarationFormatter :=
  { til :=
      { types := [("Flags", .udt flagsDetails)]
        numbered := fun _ => none
        ordinalOf := fun _ => 0
        print := fun _ name => "struct " ++ name ++ ";" }
    options := { trimUnreferenced := true, usedOffsets := [⟨"Flags", offsets⟩] } }
where
  flagsDetails : UdtTypeData :=
    { members := [⟨"a", .unnamed, 0, 12, true⟩, ⟨"b", .unnamed, 12, 4, true⟩], totalSize := 2 }

theorem layout_flags : flags.flagsDetails.Layout := by
  constructor <;> simp [flags.flagsDetails]

theorem byteFaithful_emitUdt_flags
    : ByteFaithful flags.flagsDetails ((flags [0, 1]).emitUdt (.named "Flags") "Flags").layout
        ↔ BitfieldsJoin 0 ((keepIndices (some [0, 1]) flags.flagsDetails).map (·.snd)) := by
  apply byteFaithful_emitUdt_iff rfl rfl layout_flags rfl rfl
  simp

theorem not_byteFaithful_flags
    : flags.flagsDetails.Layout
        ∧ ¬ByteFaithful flags.flagsDetails
          ((flags [1]).emitUdt (.named "Flags") "Flags").layout := by
  refine ⟨layout_flags, ?_⟩
  intro h
  have hlaid := h.laidOut
  revert hlaid
  have hlines : ((flags [1]).emitUdt (.named "Flags") "Flags").layout
      = [ { member := none, byteOffset := 0, byteSize := 1, emitComment := true }
        , { member := some 1, byteOffset := 1, isBitfield := true, bitOffset := 4, bitSize := 4 } ] := by
    decide
  rw [hlines]
  simp [LaidOut, Line.place, Line.start, Line.width, Line.declared, flags.flagsDetails]

end TypeDeclarationFormatter

end Lines

end Types
end Idax
