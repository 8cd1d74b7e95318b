import Idax.Comment.Lemmas.Extra
import Idax.Library.Machine

/-!
Anterior and posterior lines share the indices of an address. As long as the operations on the
anterior lines stay below `E_NEXT`, the posterior lines are what they were.
-/

namespace Idax
namespace Comment

section Separated

def Separated (ea : Address) (posterior : Result (List Text)) (s : Store) : Prop :=
  posteriorLines s ea = posterior
    ∧ ∃ lines, anteriorLines s ea = .ok lines ∧ ePrev + lines.length ≤ eNext

def anteriorStep (ea : Address) (s : Store) (op : ExtraOp) : Store :=
  (op.run ea s .anterior).2

namespace Column

def RunStops (c : Column) : Prop :=
  c.Visible eNext → ∃ i, ePrev ≤ i ∧ i < eNext ∧ c.text i = none

/--
An operation on the anterior lines `l` stays below `E_NEXT`, and leaves a gap below it where there are
posterior lines. A line that is empty up to its first NUL is such a gap.
-/
def StaysBelow (c : Column) (l : List Text) : ExtraOp → Prop
  | .add text => CString.read text ≠ [] → ePrev + l.length < eNext
      ∧ (c.Visible eNext → ∃ i, ePrev + l.length < i ∧ i < eNext ∧ ¬ c.Visible i)
  | .set lineIndex _ => ∀ n : Nat, lineIndex = n → c.Visible (ePrev + n) → ePrev + n < eNext
  | .removeLine lineIndex => ∀ n : Nat, lineIndex = n → n < l.length → c.RunStops
  | .setLines lines => ePrev + lines.length ≤ eNext ∧ c.RunStops
      ∧ (c.Visible eNext → (∃ line ∈ lines, CString.read line = [])
        ∨ ∃ i, ePrev + lines.length ≤ i ∧ i < eNext ∧ ¬ (c.removeRun ePrev).Visible i)
  | .clear => c.RunStops

end Column

def StaysBelow (ea : Address) (s : Store) (op : ExtraOp) : Prop :=
  (s ea).StaysBelow (lines s ea ePrev) op

end Separated

section Effects

namespace Column

theorem reads_congr {c c' : Column} {i : Int} (hsame : ∀ j, i ≤ j → c'.text j = c.text j)
    {l : List Text} (hreads : c.Reads i l) : c'.Reads i l := by
  rcases reads_iff.mp hreads with ⟨hlines, hgap⟩
  apply reads_iff.mpr
  refine ⟨?_, ?_⟩
  . intro j hj
    rw [hsame _ (by omega)]
    apply hlines j hj
  . unfold Visible
    rw [hsame _ (by omega)]
    apply hgap

theorem Reads.length_le {c : Column} {i : Int} {l : List Text} (hreads : c.Reads i l) {j : Int}
    (hij : i ≤ j) (hgap : ¬ c.Visible j) : i + l.length ≤ j := by
  by_contra hlt
  have hvisible := hreads.visible (j := (j - i).toNat) (by omega)
  have heq : i + ((j - i).toNat : Int) = j := by omega
  rw [heq] at hvisible
  apply hgap hvisible

structure Keeps (c c' : Column) : Prop where
  posterior : ∀ l, c.Reads eNext l → c'.Reads eNext l
  gap : ∃ i, ePrev ≤ i ∧ i ≤ eNext ∧ ¬ c'.Visible i

theorem keeps_set {c : Column} {n : Nat} (text : Text) (hn : ePrev + n < eNext) {i : Int}
    (hlower : ePrev ≤ i) (hupper : i ≤ eNext) (hgap : ¬ c.Visible i) (hne : i ≠ ePrev + n)
    : c.Keeps (c.set (ePrev + n) text) where
  posterior := by
    intro l hreads
    apply reads_congr _ hreads
    intro j hj
    rw [text_set, if_neg (by omega)]
  gap := by
    refine ⟨i, hlower, hupper, ?_⟩
    unfold Visible
    rw [text_set, if_neg hne]
    apply hgap

theorem keeps_set_empty {c : Column} {n : Nat} {text : Text} (hempty : CString.read text = [])
    (hle : ePrev + n ≤ eNext) (hgap : ¬ c.Visible (ePrev + n)) : c.Keeps (c.set (ePrev + n) text) := by
  have hnot : ¬ (c.set (ePrev + n) text).Visible (ePrev + n) := by
    rintro ⟨t, htext, hne⟩
    rw [text_set, if_pos rfl, hempty] at htext
    cases htext
    exact hne rfl
  constructor
  case posterior =>
    intro l hreads
    by_cases heq : ePrev + n = eNext
    . rw [heq] at hgap hnot ⊢
      rw [hreads.unique (Reads.nil hgap)]
      apply Reads.nil hnot
    . apply reads_congr _ hreads
      intro j hj
      rw [text_set, if_neg (by omega)]
  case gap => exact ⟨ePrev + n, by omega, hle, hnot⟩

theorem Overwritten.not_visible {c c' : Column} {baseIdx : Int} {ls : List Text}
    (hwritten : c'.Overwritten c baseIdx ls) {i : Int} (hi : baseIdx + ls.length ≤ i)
    (hgap : ¬ (c.removeRun baseIdx).Visible i) : ¬ c'.Visible i := by
  rwa [visible_congr (hwritten.other i (.inr hi))]

theorem Overwritten.not_visible_empty {c c' : Column} {baseIdx : Int} {ls : List Text}
    (hwritten : c'.Overwritten c baseIdx ls) {k : Nat} (hk : k < ls.length)
    (hempty : CString.read ls[k] = []) : ¬ c'.Visible (baseIdx + k) := by
  rintro ⟨t, htext, hne⟩
  rw [hwritten.written k hk, hempty] at htext
  cases htext
  exact hne rfl

theorem keeps_overwritten {c c' : Column} {ls : List Text} (hwritten : c'.Overwritten c ePrev ls)
    (hlength : ePrev + ls.length ≤ eNext) (hstops : c.RunStops)
    (hgap : c.Visible eNext → ∃ i, ePrev ≤ i ∧ i ≤ eNext ∧ ¬ c'.Visible i)
    : c.Keeps c' := by
  have hafter : ∀ j, eNext ≤ j → c'.text j = (c.removeRun ePrev).text j := by
    intro j hj
    apply hwritten.other
    omega
  by_cases hvisible : c.Visible eNext
  . rcases hstops hvisible with ⟨i, hlower, hupper, hnone⟩
    have hrun : ePrev + c.runLength ePrev ≤ i := by
      by_contra hlt
      have hsome := (c.runLength_spec ePrev).left (i - ePrev).toNat (by omega)
      have heq : ePrev + ((i - ePrev).toNat : Int) = i := by omega
      rw [heq, hnone] at hsome
      cases hsome
    constructor
    case posterior =>
      intro l hreads
      apply reads_congr _ hreads
      intro j hj
      rw [hafter j hj, text_removeRun, if_neg (by omega)]
    case gap => exact hgap hvisible
  . -- Without posterior lines there is nothing to be lost, and nothing is gained.
    have hnot : ¬ c'.Visible eNext := by
      rintro ⟨t, htext, hne⟩
      rw [hafter eNext (Int.le_refl _), text_removeRun] at htext
      split at htext
      . cases htext
      . apply hvisible ⟨t, htext, hne⟩
    constructor
    case posterior =>
      intro l hreads
      have hnil := hreads.unique (Reads.nil hvisible)
      rw [hnil]
      apply Reads.nil hnot
    case gap => exact ⟨eNext, by decide, Int.le_refl _, hnot⟩

theorem keeps_effect {c c' : Column} {l : List Text} {op : ExtraOp} (hreads : c.Reads ePrev l)
    (hlength : ePrev + l.length ≤ eNext) (heffect : Effect c ePrev l op c')
    (hbelow : c.StaysBelow l op) : c.Keeps c' := by
  have hle := hreads.le_runLength
  have hgap := (reads_iff.mp hreads).right
  cases heffect with
  | add text =>
    by_cases hempty : CString.read text = []
    . apply keeps_set_empty hempty hlength hgap
    . rcases hbelow hempty with ⟨hlt, hroom⟩
      by_cases hvisible : c.Visible eNext
      . rcases hroom hvisible with ⟨i, hlower, hupper, hgap⟩
        apply keeps_set text hlt (i := i) (by omega) (by omega) hgap (by omega)
      . apply keeps_set text hlt (i := eNext) (by decide) (Int.le_refl _) hvisible (by omega)
  | set n text hvisible =>
    apply keeps_set text (hbelow n rfl hvisible) (i := ePrev + l.length) (by omega) hlength hgap
    intro heq
    rw [heq] at hgap
    apply hgap hvisible
  | removeLine n hlt c' hwritten =>
    have hlength' : (l.eraseIdx n).length = l.length - 1 := List.length_eraseIdx_of_lt hlt
    apply keeps_overwritten hwritten
    . omega
    . apply hbelow n rfl hlt
    . intro _
      refine ⟨ePrev + (l.eraseIdx n).length, by omega, by omega, ?_⟩
      apply hwritten.not_visible (Int.le_refl _)
      apply not_visible_removeRun
      omega
  | setLines ls c' hwritten =>
    rcases hbelow with ⟨hlen, hstops, hroom⟩
    apply keeps_overwritten hwritten hlen hstops
    intro hvisible
    rcases hroom hvisible with ⟨line, hmem, hempty⟩ | ⟨i, hlower, hupper, hnot⟩
    . rcases List.getElem_of_mem hmem with ⟨k, hk, rfl⟩
      exact ⟨ePrev + k, by omega, by omega, hwritten.not_visible_empty hk hempty⟩
    . exact ⟨i, by omega, by omega, hwritten.not_visible hlower hnot⟩
  | clear =>
    have hwritten : (c.removeRun ePrev).Overwritten c ePrev [] := by
      refine ⟨?_, fun _ _ => rfl⟩
      intro k hk
      simp at hk
    apply keeps_overwritten hwritten (by decide) hbelow
    intro _
    refine ⟨ePrev + (0 : Nat), by omega, by decide, ?_⟩
    apply not_visible_removeRun (Nat.zero_le _)

end Column

end Effects

section Runs

theorem separated_iff {ea : Address} {posterior : List Text} {s : Store}
    : Separated ea (.ok posterior) s
      ↔ (s ea).Reads eNext posterior ∧ ∃ l, (s ea).Reads ePrev l ∧ ePrev + l.length ≤ eNext := by
  unfold Separated posteriorLines anteriorLines
  simp only [collectExtraLines_eq, Except.ok.injEq, lines_eq_iff (show 0 ≤ eNext by decide),
    lines_eq_iff (show 0 ≤ ePrev by decide)]

theorem separated_step {ea : Address} {posterior : Result (List Text)} {s : Store}
    (hseparated : Separated ea posterior s) {op : ExtraOp} (hbelow : StaysBelow ea s op)
    : Separated ea posterior (anteriorStep ea s op) := by
  have hposterior : posterior = .ok (lines s ea eNext) := hseparated.left.symm
  rw [hposterior] at hseparated ⊢
  rcases separated_iff.mp hseparated with ⟨hpost, l, hreads, hlength⟩
  have hlines := (lines_eq_iff (show 0 ≤ ePrev by decide)).mpr hreads
  unfold StaysBelow at hbelow
  unfold anteriorStep
  rcases run_cases .anterior ea s op with ⟨⟨e, herror⟩, _⟩ | ⟨_, heffect⟩
  . rw [herror]
    apply hseparated
  . simp only [Side.baseIdx] at heffect
    rw [hlines] at heffect hbelow
    have hkeeps := Column.keeps_effect hreads hlength heffect hbelow
    rcases hkeeps.gap with ⟨i, hlower, hupper, hgap⟩
    have hreads' := reads_lines (op.run ea s .anterior).2 ea (show 0 ≤ ePrev by decide)
    have hlength' := hreads'.length_le hlower hgap
    apply separated_iff.mpr
    exact ⟨hkeeps.posterior _ hpost, _, hreads', by omega⟩

/--
Operations on the anterior lines that stay below `E_NEXT` leave the posterior lines alone, and no
posterior line is ever read as an anterior one.
-/
theorem separated_run {ea : Address} {posterior : Result (List Text)} {s : Store}
    (hstart : Separated ea posterior s) (ops : List ExtraOp)
    (hbelow : Machine.Guarded (anteriorStep ea) (StaysBelow ea) s ops)
    : Machine.Always (anteriorStep ea) (Separated ea posterior) s ops := by
  induction ops generalizing s with
  | nil => apply hstart
  | cons op ops ih =>
    have hnext := separated_step hstart hbelow.left
    exact ⟨hstart, ih hnext hbelow.right⟩

def onePosterior : Store :=
  (setPosteriorLines 0 [[80]] fun _ => .empty).2

theorem separated_twoOperations
    : Machine.Always (anteriorStep 0) (Separated 0 (posteriorLines onePosterior 0)) onePosterior
        [.setLines [[65], [66]], .add [67]] := by
  apply separated_run
  . exact ⟨rfl, _, rfl, by decide⟩
  . refine ⟨⟨by decide, ?_, ?_⟩, fun _ => ⟨by decide, ?_⟩, trivial⟩
    . intro _
      exact ⟨1999, by decide, by decide, rfl⟩
    . intro _
      refine .inr ⟨1999, by decide, by decide, ?_⟩
      rintro ⟨t, htext, _⟩
      rw [Column.text_removeRun, show (onePosterior 0).text 1999 = none from rfl, ite_self] at htext
      cases htext
    . intro _
      refine ⟨1999, by decide, by decide, ?_⟩
      rintro ⟨t, htext, _⟩
      have hnone : ((anteriorStep 0 onePosterior (.setLines [[65], [66]])) 0).text 1999 = none := by
        decide
      rw [hnone] at htext
      cases htext

theorem not_separated_beyond
    : ¬ Machine.Always (anteriorStep 0) (Separated 0 (posteriorLines onePosterior 0)) onePosterior
        [.set 1000 [65]]
      ∧ ¬ Machine.Always (anteriorStep 0) (Separated 0 (posteriorLines (fun _ => .empty) 0))
        (fun _ => .empty) [.setLines (List.replicate 1001 [65])] := by
  constructor
  . intro halways
    have hposterior := halways.right.left
    cases hposterior
  . intro halways
    have hposterior := halways.right.left
    have hwritten := (setExtraLines_spec 0 ePrev (List.replicate 1001 [65]) fun _ => .empty).right
    have hlt : 1000 < (List.replicate 1001 ([65] : Text)).length := by
      rw [List.length_replicate]
      omega
    have htext := hwritten.written 1000 hlt
    rw [List.getElem_replicate] at htext
    have hnone : posteriorLines (fun _ => .empty) 0 = .ok [] := rfl
    rw [hnone] at hposterior
    have hreads := (lines_eq_iff (show 0 ≤ eNext by decide)).mp (Except.ok.inj hposterior)
    have hindex : eNext + (([] : List Text).length : Int) = ePrev + (1000 : Nat) := by decide
    have hstep : ∀ ls s, anteriorStep 0 s (.setLines ls) = (setExtraLines 0 ePrev ls s).2 :=
      fun _ _ => rfl
    apply (Column.reads_iff.mp hreads).right
    rw [hindex, hstep]
    exact ⟨_, htext, by decide⟩

end Runs

end Comment
end Idax
