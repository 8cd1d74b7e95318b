import Idax.Comment.Lemmas.Extra
import Idax.Library.Machine

/-!
The extra lines on one side of an address as a list of strings: when the operations on them are the
operations of a list, and the lines that are read are those of the list.
-/

namespace Idax
namespace Comment

section Lists

/--
The operation of a list that an operation on extra lines stands for. There is none where it names a
line that is not in the list.
-/
def ExtraOp.apply : ExtraOp → List Text → Option (List Text)
  | .add text, l => some (l ++ [text])
  | .set lineIndex text, l =>
    if 0 ≤ lineIndex ∧ lineIndex < l.length then some (l.set lineIndex.toNat text) else none
  | .removeLine lineIndex, l =>
    if 0 ≤ lineIndex ∧ lineIndex < l.length then some (l.eraseIdx lineIndex.toNat) else none
  | .setLines lines, _ => some lines
  | .clear, _ => some []

structure Refinement where
  store : Store
  list : Option (List Text)

variable (ea : Address) (side : Side)

def Refinement.step (r : Refinement) (op : ExtraOp) : Refinement :=
  match op.run ea r.store side with
  | (.ok _, s) => { store := s, list := r.list.bind op.apply }
  | (.error _, s) => { r with store := s }

def Refinement.Refines (r : Refinement) : Prop :=
  ∃ l, r.list = some l ∧ side.lines r.store ea = .ok l

def Storable (text : Text) : Prop :=
  text ≠ [] ∧ 0 ∉ text

/--
The texts that are written can be stored, and no line is left over behind the ones that are written.
-/
def Column.KeepsLines (c : Column) (baseIdx : Int) (l : List Text) : ExtraOp → Prop
  | .add text => Storable text ∧ ¬ c.Visible (baseIdx + l.length + 1)
  | .set lineIndex text =>
    ∀ n : Nat, lineIndex = n → c.Visible (baseIdx + n) → n < l.length ∧ Storable text
  | .removeLine _ => True
  | .setLines lines =>
    (∀ text ∈ lines, Storable text) ∧ ¬ (c.removeRun baseIdx).Visible (baseIdx + lines.length)
  | .clear => True

def Refinement.KeepsLines (r : Refinement) (op : ExtraOp) : Prop :=
  (r.store ea).KeepsLines side.baseIdx (Comment.lines r.store ea side.baseIdx) op

end Lists

section Effects

theorem storable_iff {text : Text} : Storable text ↔ CString.read text = text ∧ text ≠ [] := by
  rw [CString.read_eq_self_iff, Storable, and_comm]

namespace Column

theorem reads_set_append {c : Column} {baseIdx : Int} {l : List Text} (hreads : c.Reads baseIdx l)
    (text : Text)
    : (c.set (baseIdx + l.length) text).Reads baseIdx (l ++ [text])
      ↔ Storable text ∧ ¬ c.Visible (baseIdx + l.length + 1) := by
  rcases reads_iff.mp hreads with ⟨hlines, _⟩
  have hother : ∀ j, j ≠ baseIdx + l.length →
      (c.set (baseIdx + l.length) text).text j = c.text j := by
    intro j hj
    rw [text_set, if_neg hj]
  have hlast : (c.set (baseIdx + l.length) text).text (baseIdx + l.length)
      = some (CString.read text) := by
    rw [text_set, if_pos rfl]
  have hlength : baseIdx + ((l ++ [text]).length : Nat) = baseIdx + l.length + 1 := by
    simp only [List.length_append, List.length_singleton]
    omega
  rw [reads_iff, hlength, visible_congr (hother _ (by omega)), storable_iff]
  constructor
  . rintro ⟨hall, hgap⟩
    have hnew := hall l.length (by simp)
    rw [hlast] at hnew
    simp only [List.getElem_concat_length, Option.some.injEq] at hnew
    exact ⟨hnew, hgap⟩
  . rintro ⟨hstorable, hgap⟩
    refine ⟨?_, hgap⟩
    intro j hj
    simp only [List.length_append, List.length_singleton] at hj
    by_cases heq : j = l.length
    . subst heq
      rw [hlast]
      simpa using hstorable
    . have hlt : j < l.length := by omega
      rw [hother _ (by omega), List.getElem_append_left hlt]
      apply hlines j hlt

theorem reads_set_set {c : Column} {baseIdx : Int} {l : List Text} (hreads : c.Reads baseIdx l)
    {n : Nat} (hn : n < l.length) (text : Text)
    : (c.set (baseIdx + n) text).Reads baseIdx (l.set n text) ↔ Storable text := by
  rcases reads_iff.mp hreads with ⟨hlines, hgap⟩
  have hother : ∀ j, j ≠ baseIdx + n → (c.set (baseIdx + n) text).text j = c.text j := by
    intro j hj
    rw [text_set, if_neg hj]
  have hnew : (c.set (baseIdx + n) text).text (baseIdx + n) = some (CString.read text) := by
    rw [text_set, if_pos rfl]
  simp only [reads_iff, List.length_set, visible_congr (hother (baseIdx + l.length) (by omega)),
    storable_iff]
  constructor
  . rintro ⟨hall, _⟩
    have hat := hall n hn
    rw [hnew] at hat
    simpa using hat
  . intro hstorable
    refine ⟨?_, hgap⟩
    intro j hj
    by_cases heq : j = n
    . subst heq
      rw [hnew]
      simpa using hstorable
    . rw [hother _ (by omega), List.getElem_set_ne (Ne.symm heq)]
      apply hlines j hj

theorem Overwritten.reads_iff {c c' : Column} {baseIdx : Int} {ls : List Text}
    (hwritten : c'.Overwritten c baseIdx ls)
    : c'.Reads baseIdx ls
      ↔ (∀ text ∈ ls, Storable text) ∧ ¬ (c.removeRun baseIdx).Visible (baseIdx + ls.length) := by
  rw [Column.reads_iff, visible_congr (hwritten.other _ (by omega))]
  apply and_congr_left'
  constructor
  . intro hall text htext
    rcases List.getElem_of_mem htext with ⟨j, hj, rfl⟩
    have hat := hall j hj
    rw [hwritten.written j hj, Option.some.injEq] at hat
    apply storable_iff.mpr hat
  . intro hall j hj
    have hat := storable_iff.mp (hall ls[j] (List.getElem_mem hj))
    rw [hwritten.written j hj, Option.some.injEq]
    apply hat

theorem Reads.storable {c : Column} {i : Int} {l : List Text} (hreads : c.Reads i l) {text : Text}
    (htext : text ∈ l) : Storable text := by
  rcases List.getElem_of_mem htext with ⟨j, hj, rfl⟩
  rcases (Column.reads_iff.mp hreads).left j hj with ⟨hat, hne⟩
  exact ⟨hne, c.noNul _ _ hat⟩

theorem effect_iff {c c' : Column} {baseIdx : Int} {l : List Text} {op : ExtraOp}
    (hreads : c.Reads baseIdx l) (heffect : Effect c baseIdx l op c')
    : (∃ l', op.apply l = some l' ∧ c'.Reads baseIdx l') ↔ c.KeepsLines baseIdx l op := by
  have hle := hreads.le_runLength
  cases heffect with
  | add text =>
    simp only [ExtraOp.apply, Option.some.injEq, exists_eq_left', KeepsLines]
    apply reads_set_append hreads
  | set n text hvisible =>
    simp only [ExtraOp.apply, KeepsLines, Int.natCast_inj, forall_eq', hvisible, true_imp_iff]
    by_cases hn : n < l.length
    . have hin : (0 : Int) ≤ n ∧ (n : Int) < l.length := by omega
      simp only [if_pos hin, Option.some.injEq, exists_eq_left', hn, true_and, Int.toNat_natCast]
      apply reads_set_set hreads hn
    . simp [hn]
  | removeLine n hlt c' hwritten =>
    have hin : (0 : Int) ≤ n ∧ (n : Int) < l.length := by omega
    simp only [ExtraOp.apply, KeepsLines, if_pos hin, Option.some.injEq, exists_eq_left',
      Int.toNat_natCast, iff_true]
    rw [hwritten.reads_iff]
    refine ⟨?_, ?_⟩
    . intro text htext
      apply hreads.storable (List.mem_of_mem_eraseIdx htext)
    . apply not_visible_removeRun
      rw [List.length_eraseIdx_of_lt hlt]
      omega
  | setLines ls c' hwritten =>
    simp only [ExtraOp.apply, KeepsLines, Option.some.injEq, exists_eq_left']
    apply hwritten.reads_iff
  | clear =>
    simp only [ExtraOp.apply, KeepsLines, Option.some.injEq, exists_eq_left', iff_true]
    apply Reads.nil
    have hgap := not_visible_removeRun (c := c) (i := baseIdx) (Nat.zero_le _)
    simpa using hgap

end Column

end Effects

section Runs

namespace Refinement

variable {ea : Address} {side : Side}

theorem refines_iff {r : Refinement}
    : r.Refines ea side ↔ ∃ l, r.list = some l ∧ (r.store ea).Reads side.baseIdx l := by
  unfold Refines
  simp only [Side.lines_eq, Except.ok.injEq, lines_eq_iff side.baseIdx_nonneg]

theorem refines_step {r : Refinement} (hrefines : r.Refines ea side) (op : ExtraOp)
    : (r.step ea side op).Refines ea side ↔ r.KeepsLines ea side op := by
  rcases refines_iff.mp hrefines with ⟨l, hlist, hreads⟩
  have hlines := (lines_eq_iff side.baseIdx_nonneg).mpr hreads
  unfold step KeepsLines
  rcases run_cases side ea r.store op with ⟨⟨e, herror⟩, hrejected⟩ | ⟨hok, heffect⟩
  . rw [hlines] at hrejected ⊢
    rw [herror]
    refine iff_of_true hrefines ?_
    cases op with
    | set lineIndex text =>
      intro n hn hvisible
      apply absurd hvisible (hrejected n hn)
    | removeLine lineIndex => trivial
    | _ => cases hrejected
  . rw [hlines] at heffect ⊢
    rw [← Column.effect_iff hreads heffect, refines_iff]
    cases hrun : op.run ea r.store side with
    | mk status s =>
      rw [hrun] at hok
      simp only at hok
      simp only [hok, ok, hlist, Option.bind_some]

theorem refines_initial (ea : Address) (side : Side) (s : Store)
    : Refines ea side { store := s, list := (side.lines s ea).toOption } := by
  rw [Side.lines_eq]
  exact ⟨_, rfl, Side.lines_eq side s ea⟩

/--
The operations of a run refine those of lists, and each time the lines that are read are those of
the list, exactly when each operation meets the condition.
-/
theorem always_refines_iff (ea : Address) (side : Side) (s : Store) (ops : List ExtraOp)
    : Machine.Always (step ea side) (Refines ea side)
        { store := s, list := (side.lines s ea).toOption } ops
      ↔ Machine.Guarded (step ea side) (KeepsLines ea side)
        { store := s, list := (side.lines s ea).toOption } ops := by
  apply Machine.always_iff_guarded
  . intro r op hrefines
    apply refines_step hrefines
  . apply refines_initial

theorem not_always_refines_emptyLine
    : ¬ Machine.Always (step 0 .anterior) (Refines 0 .anterior)
        { store := fun _ => .empty, list := some [] } [.setLines [[65], [], [66]]] := by
  intro halways
  rcases halways.right with ⟨l, hlist, hlines⟩
  cases hlist
  cases hlines

end Refinement

end Runs

section Tidy

def Column.Tidy (c : Column) (baseIdx : Int) (l : List Text) : Prop :=
  ∀ i, baseIdx + l.length ≤ i → c.text i = none

def Column.StoresTexts (c : Column) (baseIdx : Int) : ExtraOp → Prop
  | .add text => Storable text
  | .set lineIndex text => ∀ n : Nat, lineIndex = n → c.Visible (baseIdx + n) → Storable text
  | .removeLine _ => True
  | .setLines lines => ∀ text ∈ lines, Storable text
  | .clear => True

namespace Column

theorem Tidy.not_visible {c : Column} {baseIdx : Int} {l : List Text} (htidy : c.Tidy baseIdx l)
    {i : Int} (hi : baseIdx + l.length ≤ i) : ¬ c.Visible i := by
  rintro ⟨t, htext, _⟩
  rw [htidy i hi] at htext
  cases htext

theorem Tidy.removeRun {c : Column} {baseIdx : Int} {l : List Text} (htidy : c.Tidy baseIdx l)
    (hreads : c.Reads baseIdx l) {i : Int} (hi : baseIdx ≤ i)
    : (c.removeRun baseIdx).text i = none := by
  have hle := hreads.le_runLength
  rw [text_removeRun]
  split
  . rfl
  . apply htidy
    omega

theorem keepsLines_iff_of_tidy {c : Column} {baseIdx : Int} {l : List Text}
    (htidy : c.Tidy baseIdx l) (hreads : c.Reads baseIdx l) (op : ExtraOp)
    : c.KeepsLines baseIdx l op ↔ c.StoresTexts baseIdx op := by
  cases op with
  | add text =>
    simp only [KeepsLines, StoresTexts]
    apply and_iff_left
    apply htidy.not_visible
    omega
  | set lineIndex text =>
    simp only [KeepsLines, StoresTexts]
    constructor
    . intro hkeeps n hn hvisible
      apply (hkeeps n hn hvisible).right
    . intro hstores n hn hvisible
      refine ⟨?_, hstores n hn hvisible⟩
      by_contra hlt
      apply htidy.not_visible _ hvisible
      omega
  | removeLine lineIndex => exact Iff.rfl
  | setLines ls =>
    simp only [KeepsLines, StoresTexts]
    apply and_iff_left
    rintro ⟨t, htext, _⟩
    rw [htidy.removeRun hreads (by omega)] at htext
    cases htext
  | clear => exact Iff.rfl

theorem tidy_effect {c c' : Column} {baseIdx : Int} {l l' : List Text} {op : ExtraOp}
    (htidy : c.Tidy baseIdx l) (hreads : c.Reads baseIdx l) (heffect : Effect c baseIdx l op c')
    (happly : op.apply l = some l') : c'.Tidy baseIdx l' := by
  have hoverwritten : ∀ {c'' : Column} {ls : List Text}, c''.Overwritten c baseIdx ls →
      c''.Tidy baseIdx ls := by
    intro c'' ls hwritten i hi
    rw [hwritten.other i (Or.inr hi)]
    apply htidy.removeRun hreads
    omega
  cases heffect with
  | add text =>
    cases happly
    intro i hi
    simp only [List.length_append, List.length_singleton] at hi
    rw [text_set, if_neg (by omega)]
    apply htidy
    omega
  | set n text hvisible =>
    simp only [ExtraOp.apply] at happly
    split at happly
    . cases happly
      intro i hi
      rw [List.length_set] at hi
      rw [text_set, if_neg (by omega)]
      apply htidy i hi
    . cases happly
  | removeLine n hlt c' hwritten =>
    simp only [ExtraOp.apply] at happly
    split at happly
    . cases happly
      apply hoverwritten hwritten
    . cases happly
  | setLines ls c' hwritten =>
    cases happly
    apply hoverwritten hwritten
  | clear =>
    cases happly
    intro i hi
    apply htidy.removeRun hreads
    simp only [List.length_nil] at hi
    omega

end Column

namespace Refinement

variable {ea : Address} {side : Side}

def Tidy (ea : Address) (side : Side) (s : Store) : Prop :=
  (s ea).Tidy side.baseIdx (Comment.lines s ea side.baseIdx)

theorem tidy_step {r : Refinement} (hrefines : r.Refines ea side) (htidy : Tidy ea side r.store)
    {op : ExtraOp} (hkeeps : r.KeepsLines ea side op) : Tidy ea side (r.step ea side op).store := by
  have hnext := (refines_step hrefines op).mpr hkeeps
  have hreads := reads_lines r.store ea side.baseIdx_nonneg
  unfold step at hnext ⊢
  rcases run_cases side ea r.store op with ⟨⟨e, herror⟩, _⟩ | ⟨hok, heffect⟩
  . rw [herror]
    apply htidy
  . rcases (Column.effect_iff hreads heffect).mpr hkeeps with ⟨l', happly, hreads'⟩
    have hl' := (lines_eq_iff side.baseIdx_nonneg).mpr hreads'
    cases hrun : op.run ea r.store side with
    | mk status s =>
      rw [hrun] at hok heffect hl'
      simp only at hok hl' heffect
      simp only [hok, ok, Tidy, hl']
      apply Column.tidy_effect htidy hreads heffect happly

theorem always_refines_iff_of_tidy {s : Store} (htidy : Tidy ea side s) (ops : List ExtraOp)
    : Machine.Always (step ea side) (Refines ea side)
        { store := s, list := (side.lines s ea).toOption } ops
      ↔ Machine.Guarded (step ea side)
        (fun r op => (r.store ea).StoresTexts side.baseIdx op)
        { store := s, list := (side.lines s ea).toOption } ops := by
  have hguarded := @Machine.always_iff_guarded _ _ (step ea side) (Refines ea side) (KeepsLines ea side)
    (fun _ op hrefines => refines_step hrefines op) _ (refines_initial ea side s) ops
  rw [hguarded]
  apply Machine.guarded_iff_of_invariant
    (J := fun r => r.Refines ea side ∧ Tidy ea side r.store)
  . rintro r op ⟨_, htidy⟩
    apply Column.keepsLines_iff_of_tidy htidy (reads_lines r.store ea side.baseIdx_nonneg)
  . rintro r op ⟨hrefines, htidy⟩ hkeeps
    exact ⟨(refines_step hrefines op).mpr hkeeps, tidy_step hrefines htidy hkeeps⟩
  . refine ⟨?_, htidy⟩
    rw [Side.lines_eq]
    exact ⟨_, rfl, Side.lines_eq side s ea⟩

end Refinement

end Tidy

end Comment
end Idax
