import Idax.Decompiler.Pseudocode
import Idax.Lines.Scanner
import Mathlib.Algebra.Group.Int.Defs
import Mathlib.Data.Option.Basic
import Mathlib.Data.Prod.Basic

/-!
This module contains the question which functions look only at the characters of the views they are
given. A view is handed on as a pointer to its first byte, so what follows it in its buffer is read
as well, unless a NUL in the view comes first.
-/

namespace Idax
namespace Lines

open CString
open Decompiler

def AdvancesInside (sdk : TagRoutines) (contents : Text) (pos : Int) : Prop :=
  pos < 0 ∨ contents.length ≤ pos ∨ 0 ∈ contents.drop pos.toNat
    ∨ sdk.tagRemove (contents.drop pos.toNat) ≠ []

section Tags

variable {sdk : TagRoutines}

theorem exists_longer (h : sdk.Documented) {s : Text} (hs : 0 ∉ s)
    : ∃ t, 0 ∉ t ∧ t.length ≤ 19 ∧ (sdk.tagRemove s).length < (sdk.tagRemove (s ++ t)).length := by
  rcases h.resumes s hs with ⟨p, hp, hlength, hplain⟩
  refine ⟨p ++ [0x61], ?_, ?_, ?_⟩
  . apply zero_not_mem_append hp (by decide)
  . rw [List.length_append]
    simp only [kColorAddrSize, List.length_singleton] at hlength ⊢
    omega
  . have hle := (h.visible s p hs hp).length_le
    have hletter : ∀ b ∈ [(0x61 : UInt8)], kColorInv < b := by
      intro b hb
      rw [List.mem_singleton.mp hb]
      decide
    rw [← List.append_assoc, hplain [0x61] hletter, List.length_append, List.length_singleton]
    omega

theorem advance_le (h : sdk.Documented) {s : Text} (hs : 0 ∉ s) (hvisible : sdk.tagRemove s ≠ [])
    : sdk.tagAdvance s 1 ≤ s.length := by
  by_contra hlt
  apply hvisible
  have hnone := (h.advance s hs hvisible).right s.length (by omega)
  rw [List.take_length] at hnone
  apply hnone

theorem advance_append (h : sdk.Documented) {s t : Text} (hs : 0 ∉ s) (ht : 0 ∉ t)
    (hvisible : sdk.tagRemove s ≠ []) : sdk.tagAdvance (s ++ t) 1 = sdk.tagAdvance s 1 := by
  have hle := advance_le h hs hvisible
  have hst : 0 ∉ s ++ t := zero_not_mem_append hs ht
  have hmore : sdk.tagRemove (s ++ t) ≠ [] := by
    intro hnil
    have hprefix := h.visible s t hs ht
    rw [hnil] at hprefix
    apply hvisible (List.prefix_nil.mp hprefix)
  have hhere := h.advance s hs hvisible
  have hthere := h.advance (s ++ t) hst hmore
  rcases Nat.lt_trichotomy (sdk.tagAdvance (s ++ t) 1) (sdk.tagAdvance s 1) with hlt | heq | hlt
  . have hnone := hhere.right _ hlt
    have hshown := hthere.left
    rw [List.take_append_of_le_length (by omega)] at hshown
    exact absurd hnone hshown
  . apply heq
  . have hnone := hthere.right _ hlt
    rw [List.take_append_of_le_length hle] at hnone
    exact absurd hnone hhere.left

theorem lt_advance_append (h : sdk.Documented) {s t : Text} (hs : 0 ∉ s) (ht : 0 ∉ t)
    (hnone : sdk.tagRemove s = []) (hvisible : sdk.tagRemove (s ++ t) ≠ [])
    : s.length < sdk.tagAdvance (s ++ t) 1 := by
  have hst : 0 ∉ s ++ t := zero_not_mem_append hs ht
  by_contra hle
  apply (h.advance (s ++ t) hst hvisible).left
  rw [List.take_append_of_le_length (by omega)]
  -- What is visible of the first bytes is visible of all of `s`.
  have hprefix := h.visible (s.take (sdk.tagAdvance (s ++ t) 1)) (s.drop (sdk.tagAdvance (s ++ t) 1))
    (fun hmem => hs (List.mem_of_mem_take hmem)) (fun hmem => hs (List.mem_of_mem_drop hmem))
  rw [List.take_append_drop, hnone] at hprefix
  apply List.prefix_nil.mp hprefix

theorem confined_tagRemove_iff (h : sdk.Documented) (contents : Text)
    : Confined contents (tagRemove sdk) ↔ contents = [] ∨ 0 ∈ contents := by
  apply confined_nonempty_iff
  intro s hs
  rcases exists_longer h hs with ⟨t, ht, _, hlt⟩
  refine ⟨t, ht, ?_⟩
  intro heq
  rw [heq] at hlt
  omega

theorem confined_tagStrlen_iff (h : sdk.Documented) (contents : Text)
    : Confined contents (tagStrlen sdk) ↔ contents = [] ∨ 0 ∈ contents := by
  apply confined_nonempty_iff
    (f := fun s => if 0 ≤ sdk.tagStrlen s then (sdk.tagStrlen s).toNat else 0)
  intro s hs
  rcases exists_longer h hs with ⟨t, ht, _, hlt⟩
  refine ⟨t, ht, ?_⟩
  have hst : 0 ∉ s ++ t := zero_not_mem_append hs ht
  simp only [h.strlen s hs, h.strlen (s ++ t) hst, Int.natCast_nonneg, ↓reduceIte, Int.toNat_natCast]
  omega

theorem confined_tagAdvance (h : sdk.Documented) {contents : Text} {pos : Int}
    (hinside : AdvancesInside sdk contents pos) : Confined contents (tagAdvance sdk · pos) := by
  by_cases hrange : pos < 0 ∨ (contents.length : Int) ≤ pos
  . apply confined_of_eq 1
    rintro v rfl
    rw [tagAdvance, if_pos hrange]
  . rw [confined_congr (g := fun v => skipOf sdk (v.readAt pos.toNat))]
    . rw [confined_readAt_iff (by omega) (skipOf sdk)]
      by_cases hmem : 0 ∈ contents.drop pos.toNat
      . exact .inl hmem
      . refine .inr ?_
        intro t ht
        rw [not_or] at hrange
        have hvisible := ((hinside.resolve_left hrange.left).resolve_left hrange.right).resolve_left hmem
        rw [skipOf, skipOf, advance_append h hmem ht hvisible]
    . rintro v rfl
      apply tagAdvance_eq hrange

theorem advancesInside_of_confined (h : sdk.Documented) {contents : Text} {pos : Int}
    (hsize : contents.length - pos + 19 < 2 ^ 31) (hconfined : Confined contents (tagAdvance sdk · pos))
    : AdvancesInside sdk contents pos := by
  by_contra hinside
  simp only [AdvancesInside, not_or, not_not] at hinside
  rcases hinside with ⟨hpos, hlt, hmem, hnone⟩
  rcases exists_longer h hmem with ⟨t, ht, htlength, hlonger⟩
  have hvisible : sdk.tagRemove (contents.drop pos.toNat ++ t) ≠ [] := by
    rw [← List.length_pos_iff]
    omega
  have hlength : (contents.drop pos.toNat).length = contents.length - pos.toNat := List.length_drop
  have hst : 0 ∉ contents.drop pos.toNat ++ t := zero_not_mem_append hmem ht
  -- The text of the view alone is passed over to its end, and a longer one to beyond that end.
  have hend := h.advance_end _ hmem hnone
  have hbeyond := lt_advance_append h hmem ht hnone hvisible
  have hle := advance_le h hst hvisible
  rw [List.length_append] at hle
  have hrange : ¬(pos < 0 ∨ (contents.length : Int) ≤ pos) := by omega
  have heq : tagAdvance sdk ⟨contents, t⟩ pos = tagAdvance sdk ⟨contents, []⟩ pos :=
    hconfined _ _ rfl rfl
  rw [tagAdvance_eq hrange, tagAdvance_eq hrange] at heq
  rw [View.readAt_eq _ (by dsimp only; omega), View.readAt_eq _ (by dsimp only; omega)] at heq
  rw [read_eq_self_iff.mpr hst, List.append_nil, read_eq_self_iff.mpr hmem] at heq
  rw [skipOf_eq (by omega) (by omega), skipOf_eq (by omega) (by omega), hend] at heq
  omega

end Tags

section Setters

theorem setLine_injective (cfunc : Cfunc) {lineIndex : Nat} (hline : lineIndex < cfunc.sv.length)
    : Function.Injective fun s : Text => (ok, { cfunc with sv := cfunc.sv.set lineIndex s }) := by
  intro s t heq
  simp only [Prod.mk.injEq, Cfunc.mk.injEq, true_and] at heq
  have hget := congrArg (·[lineIndex]?) heq
  simpa [hline] using hget

theorem confined_setLine_iff (cfunc : Cfunc) (lineIndex : Nat) (contents : Text)
    : Confined contents (cfunc.setLine lineIndex)
        ↔ cfunc.sv.length ≤ lineIndex ∨ 0 ∈ contents := by
  by_cases hline : lineIndex < cfunc.sv.length
  . rw [confined_congr (g := fun v =>
      (ok, { cfunc with sv := cfunc.sv.set lineIndex (v.readAt 0) }))]
    . rw [confined_start_iff (distinguishes_of_injective (setLine_injective cfunc hline))]
      simp only [show ¬cfunc.sv.length ≤ lineIndex by omega, false_or]
    . intro v _
      rw [Cfunc.setLine, if_neg (by omega)]
  . have hconfined : Confined contents (cfunc.setLine lineIndex) := by
      apply confined_of_eq (.error (.validation "Line index out of range"), cfunc)
      intro v _
      rw [Cfunc.setLine, if_pos (by omega)]
    exact ⟨fun _ => .inl (by omega), fun _ => hconfined⟩

theorem confined_setRawLine_iff (self : DecompiledFunction) (lineIndex : Nat) (contents : Text)
    : Confined contents (self.setRawLine lineIndex)
        ↔ (∀ cfunc, self.cfunc? = some cfunc → cfunc.sv.length ≤ lineIndex) ∨ 0 ∈ contents := by
  cases hcfunc : self.cfunc? with
  | none =>
    have hconfined : Confined contents (self.setRawLine lineIndex) := by
      apply confined_of_eq (.error (.internal "DecompiledFunction is empty"), self)
      intro v _
      rw [DecompiledFunction.setRawLine, hcfunc]
    simp [hconfined]
  | some cfunc =>
    have hinjective : Function.Injective fun cfunc => ({ impl := some { cfunc := some cfunc } }
        : DecompiledFunction) := by
      intro c c' heq
      simpa using heq
    rw [confined_congr (g := fun v => Prod.map id _ (cfunc.setLine lineIndex v))]
    . rw [confined_comp_iff (Function.injective_id.prodMap hinjective), confined_setLine_iff]
      simp
    . intro v _
      rw [DecompiledFunction.setRawLine, hcfunc]
      rfl

theorem confined_setPseudocodeLine_iff (handle : Option Cfunc) (lineIndex : Nat) (contents : Text)
    : Confined contents (setPseudocodeLine handle lineIndex)
        ↔ (∀ cfunc, handle = some cfunc → cfunc.sv.length ≤ lineIndex) ∨ 0 ∈ contents := by
  cases handle with
  | none =>
    have hconfined : Confined contents (setPseudocodeLine none lineIndex) := by
      apply confined_of_eq (.error (.validation "cfunc_handle is null"), none)
      intro v _
      rfl
    simp [hconfined]
  | some cfunc =>
    rw [confined_congr (g := fun v => Prod.map id some (cfunc.setLine lineIndex v))]
    . rw [confined_comp_iff (Function.injective_id.prodMap (Option.some_injective _))]
      rw [confined_setLine_iff]
      simp
    . intro v _
      rfl

end Setters

/--
When the results of calls with equal views agree: a NUL in the view, or nothing that is read, is
needed everywhere but for `tag_advance`, which stops at the first visible character.
-/
theorem confined_iff (sdk : TagRoutines) (h : sdk.Documented) (contents : Text)
    : (Confined contents (tagRemove sdk) ↔ contents = [] ∨ 0 ∈ contents)
        ∧ (Confined contents (tagStrlen sdk) ↔ contents = [] ∨ 0 ∈ contents)
        ∧ (∀ pos : Int,
            (AdvancesInside sdk contents pos → Confined contents (tagAdvance sdk · pos))
            ∧ (contents.length - pos + 19 < 2 ^ 31 → Confined contents (tagAdvance sdk · pos)
                → AdvancesInside sdk contents pos))
        ∧ (∀ (self : DecompiledFunction) (lineIndex : Nat),
            Confined contents (self.setRawLine lineIndex)
              ↔ (∀ cfunc, self.cfunc? = some cfunc → cfunc.sv.length ≤ lineIndex) ∨ 0 ∈ contents)
        ∧ ∀ (handle : Option Cfunc) (lineIndex : Nat),
            Confined contents (setPseudocodeLine handle lineIndex)
              ↔ (∀ cfunc, handle = some cfunc → cfunc.sv.length ≤ lineIndex) ∨ 0 ∈ contents := by
  refine ⟨confined_tagRemove_iff h contents, confined_tagStrlen_iff h contents, ?_, ?_, ?_⟩
  . intro pos
    exact ⟨confined_tagAdvance h, advancesInside_of_confined h⟩
  . intro self lineIndex
    apply confined_setRawLine_iff
  . intro handle lineIndex
    apply confined_setPseudocodeLine_iff

theorem confined_letter
    : Confined [0x61] (tagAdvance Scanner.tagRoutines · 0)
        ∧ ¬Confined [0x61] (tagRemove Scanner.tagRoutines) := by
  rcases confined_iff Scanner.tagRoutines Scanner.documented [0x61] with ⟨hremove, _, hadvance, _⟩
  constructor
  . apply (hadvance 0).left
    unfold AdvancesInside
    decide
  . rw [hremove]
    decide

theorem not_confined_letter
    : tagRemove Scanner.tagRoutines ⟨[0x61], []⟩ = [0x61]
        ∧ tagRemove Scanner.tagRoutines ⟨[0x61], [0x62]⟩ = [0x61, 0x62]
        ∧ tagStrlen Scanner.tagRoutines ⟨[0x61], []⟩ = 1
        ∧ tagStrlen Scanner.tagRoutines ⟨[0x61], [0x62]⟩ = 2
        ∧ tagAdvance Scanner.tagRoutines ⟨[kColorOn, 0x20], []⟩ 0 = 2
        ∧ tagAdvance Scanner.tagRoutines ⟨[kColorOn, 0x20], [0x62]⟩ 0 = 3
        ∧ DecompiledFunction.setRawLine ⟨some ⟨some ⟨[[]]⟩⟩⟩ 0 ⟨[0x61], []⟩
            = (ok, ⟨some ⟨some ⟨[[0x61]]⟩⟩⟩)
        ∧ DecompiledFunction.setRawLine ⟨some ⟨some ⟨[[]]⟩⟩⟩ 0 ⟨[0x61], [0x62]⟩
            = (ok, ⟨some ⟨some ⟨[[0x61, 0x62]]⟩⟩⟩)
        ∧ setPseudocodeLine (some ⟨[[]]⟩) 0 ⟨[0x61], []⟩ = (ok, some ⟨[[0x61]]⟩)
        ∧ setPseudocodeLine (some ⟨[[]]⟩) 0 ⟨[0x61], [0x62]⟩ = (ok, some ⟨[[0x61, 0x62]]⟩) := by
  decide

end Lines
end Idax
