import Idax.Comment.Extra

/-!
What the functions on extra lines do to the comments at an address, and what is then read.
-/

namespace Idax
namespace Comment

section Reads

namespace Column

def Visible (c : Column) (i : Int) : Prop :=
  ∃ t, c.text i = some t ∧ t ≠ []

inductive Reads (c : Column) : Int → List Text → Prop where
  | nil {i : Int} (hgap : ¬ c.Visible i) : Reads c i []
  | cons {i : Int} {line : Text} {lines : List Text} (htext : c.text i = some line)
    (hne : line ≠ []) (hrest : Reads c (i + 1) lines) : Reads c i (line :: lines)

theorem reads_iff {c : Column} {i : Int} {lines : List Text}
    : c.Reads i lines
      ↔ (∀ j (h : j < lines.length), c.text (i + j) = some lines[j] ∧ lines[j] ≠ [])
        ∧ ¬ c.Visible (i + lines.length) := by
  induction lines generalizing i with
  | nil =>
    constructor
    . rintro ⟨hgap⟩
      simpa using hgap
    . rintro ⟨_, hgap⟩
      apply Reads.nil
      simpa using hgap
  | cons line lines ih =>
    have hshift : ∀ n : Nat, i + 1 + (n : Int) = i + ((n + 1 : Nat) : Int) := by
      intro n
      omega
    constructor
    . intro hreads
      cases hreads with
      | cons htext hne hrest =>
        rcases ih.mp hrest with ⟨hlines, hgap⟩
        refine ⟨?_, ?_⟩
        . intro j hj
          cases j with
          | zero => simpa using ⟨htext, hne⟩
          | succ j =>
            have := hlines j (by simpa using hj)
            rw [hshift] at this
            simpa using this
        . rw [hshift] at hgap
          simpa using hgap
    . rintro ⟨hlines, hgap⟩
      have hfirst := hlines 0 (by simp)
      have hzero : i + ((0 : Nat) : Int) = i := by omega
      rw [hzero] at hfirst
      apply Reads.cons hfirst.left hfirst.right
      apply ih.mpr
      refine ⟨?_, ?_⟩
      . intro j hj
        have := hlines (j + 1) (by simpa using hj)
        rw [hshift]
        simpa using this
      . rw [hshift]
        simpa using hgap

theorem visible_congr {c c' : Column} {i : Int} (h : c'.text i = c.text i)
    : c'.Visible i ↔ c.Visible i := by
  unfold Visible
  rw [h]

theorem Reads.unique {c : Column} {i : Int} {lines lines' : List Text} (h : c.Reads i lines)
    (h' : c.Reads i lines') : lines = lines' := by
  induction h generalizing lines' with
  | nil hgap =>
    cases h' with
    | nil _ => rfl
    | cons htext hne _ => exact absurd ⟨_, htext, hne⟩ hgap
  | cons htext hne _ ih =>
    cases h' with
    | nil hgap => exact absurd ⟨_, htext, hne⟩ hgap
    | cons htext' _ hrest =>
      rw [htext, Option.some.injEq] at htext'
      rw [htext', ih hrest]

theorem Reads.visible {c : Column} {i : Int} {lines : List Text} (h : c.Reads i lines) {j : Nat}
    (hj : j < lines.length) : c.Visible (i + j) :=
  ⟨_, (reads_iff.mp h).left j hj⟩

end Column

theorem getExtraCmt_pos_iff {s : Store} {ea : Address} {i : Int}
    : (getExtraCmt s ea i).1 > 0 ↔ (s ea).Visible i := by
  unfold getExtraCmt Column.Visible
  cases (s ea).text i with
  | none => simp
  | some line => cases line <;> simp

def lines (s : Store) (ea : Address) (baseIdx : Int) : List Text :=
  collectExtraLines.go s ea baseIdx (s ea).bound 0

theorem collectExtraLines_eq (s : Store) (ea : Address) (baseIdx : Int)
    : collectExtraLines s ea baseIdx = .ok (lines s ea baseIdx) :=
  rfl

theorem reads_go (s : Store) (ea : Address) (baseIdx : Int) (fuel i : Nat)
    (hfuel : ¬ (s ea).Visible (baseIdx + (i + fuel : Nat)))
    : (s ea).Reads (baseIdx + i) (collectExtraLines.go s ea baseIdx fuel i) := by
  induction fuel generalizing i with
  | zero => apply Column.Reads.nil hfuel
  | succ fuel ih =>
    have hrest := ih (i + 1) (by rwa [Nat.add_assoc, Nat.add_comm 1])
    unfold collectExtraLines.go
    by_cases hvisible : (s ea).Visible (baseIdx + i)
    . rcases hvisible with ⟨line, htext, hne⟩
      have hlength : ¬ (line.length : Int) ≤ 0 := by
        have := List.length_pos_iff.mpr hne
        omega
      simp only [getExtraCmt, htext, if_neg hlength]
      apply Column.Reads.cons htext hne
      rw [Int.add_assoc]
      apply hrest
    . have hlength : (getExtraCmt s ea (baseIdx + i)).1 ≤ 0 := by
        rw [← getExtraCmt_pos_iff] at hvisible
        omega
      simp only [if_pos hlength]
      apply Column.Reads.nil hvisible

theorem not_visible_bound (c : Column) {i : Int} (h : c.bound ≤ i) : ¬ c.Visible i := by
  rintro ⟨t, htext, _⟩
  rw [c.missing i h] at htext
  cases htext

theorem reads_lines (s : Store) (ea : Address) {baseIdx : Int} (hbase : 0 ≤ baseIdx)
    : (s ea).Reads baseIdx (lines s ea baseIdx) := by
  have hreads := reads_go s ea baseIdx (s ea).bound 0
  have hzero : baseIdx + ((0 : Nat) : Int) = baseIdx := by omega
  rw [hzero, Nat.zero_add] at hreads
  apply hreads
  apply not_visible_bound
  omega

theorem lines_eq_iff {s : Store} {ea : Address} {baseIdx : Int} (hbase : 0 ≤ baseIdx)
    {l : List Text} : lines s ea baseIdx = l ↔ (s ea).Reads baseIdx l := by
  constructor
  . rintro rfl
    apply reads_lines s ea hbase
  . intro hreads
    apply (reads_lines s ea hbase).unique hreads

theorem freeSlot_eq (s : Store) (ea : Address) {baseIdx : Int} (hbase : 0 ≤ baseIdx)
    : Scan.run (fun i => (getExtraCmt s ea (baseIdx + i)).1 > 0) (s ea).bound
      = (lines s ea baseIdx).length := by
  have hreads := reads_lines s ea hbase
  apply Scan.run_eq
  . rw [decide_eq_false_iff_not, getExtraCmt_pos_iff]
    apply not_visible_bound
    omega
  . intro i hi
    rw [decide_eq_true_iff, getExtraCmt_pos_iff]
    apply hreads.visible hi
  . rw [decide_eq_false_iff_not, getExtraCmt_pos_iff]
    apply (Column.reads_iff.mp hreads).right

end Reads

section Texts

namespace Column

theorem text_set (c : Column) (i : Int) (t : Text) (j : Int)
    : (c.set i t).text j = if j = i then some (CString.read t) else c.text j := by
  simp only [set, Function.update_apply]

theorem runLength_spec (c : Column) (what : Int)
    : (∀ i : Nat, i < c.runLength what → (c.text (what + i)).isSome)
      ∧ c.text (what + c.runLength what) = none := by
  constructor
  . intro i hi
    apply Scan.of_lt_run hi
  . have hmissing : (c.text (what + (c.bound + what.natAbs : Nat))).isSome = false := by
      simp only [Option.isSome_eq_false_iff, Option.isNone_iff_eq_none]
      apply c.missing
      omega
    have hstop := Scan.run_stop (p := fun i : Nat => (c.text (what + i)).isSome) hmissing
    simpa [runLength] using hstop

theorem text_removeRun (c : Column) (what j : Int)
    : (c.removeRun what).text j
      = if what ≤ j ∧ j < what + c.runLength what then none else c.text j :=
  rfl

theorem Reads.le_runLength {c : Column} {i : Int} {l : List Text} (hreads : c.Reads i l)
    : l.length ≤ c.runLength i := by
  by_contra hlt
  rcases hreads.visible (j := c.runLength i) (by omega) with ⟨t, htext, _⟩
  rw [(c.runLength_spec i).right] at htext
  cases htext

theorem not_visible_removeRun {c : Column} {i : Int} {n : Nat} (hle : n ≤ c.runLength i)
    : ¬ (c.removeRun i).Visible (i + n) := by
  rintro ⟨t, htext, _⟩
  rw [text_removeRun] at htext
  split at htext
  . cases htext
  . next hnot =>
    have heq : n = c.runLength i := by omega
    rw [heq, (c.runLength_spec i).right] at htext
    cases htext

end Column

theorem setExtraLines_go (ea : Address) (baseIdx : Int) (i : Nat) (ls : List Text) (s : Store)
    : (setExtraLines.go ea baseIdx i ls s).1 = ok
      ∧ (∀ k (h : k < ls.length), ((setExtraLines.go ea baseIdx i ls s).2 ea).text
          (baseIdx + (i + k : Nat)) = some (CString.read ls[k]))
      ∧ ∀ j, j < baseIdx + i ∨ baseIdx + (i + ls.length : Nat) ≤ j →
          ((setExtraLines.go ea baseIdx i ls s).2 ea).text j = (s ea).text j := by
  induction ls generalizing i s with
  | nil =>
    refine ⟨rfl, ?_, fun _ _ => rfl⟩
    intro k hk
    simp at hk
  | cons line ls ih =>
    let s' := (updateExtraCmt ea (baseIdx + i) line s).2
    have hgo : setExtraLines.go ea baseIdx i (line :: ls) s
        = setExtraLines.go ea baseIdx (i + 1) ls s' := rfl
    have hset : ∀ j, (s' ea).text j
        = if j = baseIdx + i then some (CString.read line) else (s ea).text j := by
      intro j
      simp only [s', updateExtraCmt, Function.update_self, Column.text_set]
    rcases ih (i + 1) s' with ⟨hok, hwritten, hother⟩
    rw [hgo]
    refine ⟨hok, ?_, ?_⟩
    . intro k hk
      cases k with
      | zero =>
        rw [hother (baseIdx + (i + 0 : Nat)) (by omega), hset, if_pos (by omega)]
        rfl
      | succ k =>
        have := hwritten k (by simpa using hk)
        rw [Nat.add_assoc, Nat.add_comm 1] at this
        simpa using this
    . intro j hj
      simp only [List.length_cons] at hj
      rw [hother j (by omega), hset, if_neg (by omega)]

structure Column.Overwritten (c' c : Column) (baseIdx : Int) (ls : List Text) : Prop where
  written : ∀ k (h : k < ls.length), c'.text (baseIdx + k) = some (CString.read ls[k])
  other : ∀ j, j < baseIdx ∨ baseIdx + ls.length ≤ j → c'.text j = (c.removeRun baseIdx).text j

theorem setExtraLines_spec (ea : Address) (baseIdx : Int) (ls : List Text) (s : Store)
    : (setExtraLines ea baseIdx ls s).1 = ok
      ∧ ((setExtraLines ea baseIdx ls s).2 ea).Overwritten (s ea) baseIdx ls := by
  rcases setExtraLines_go ea baseIdx 0 ls (deleteExtraCmts ea baseIdx s) with ⟨hok, hwritten, hother⟩
  refine ⟨hok, ?_, ?_⟩
  . intro k hk
    have := hwritten k hk
    rw [Nat.zero_add] at this
    apply this
  . intro j hj
    have := hother j (by omega)
    simp only [deleteExtraCmts, Function.update_self] at this
    apply this

end Texts

section Operations

theorem Side.baseIdx_nonneg (side : Side) : 0 ≤ side.baseIdx := by
  cases side <;> decide

theorem Side.lines_eq (side : Side) (s : Store) (ea : Address)
    : side.lines s ea = .ok (Comment.lines s ea side.baseIdx) := by
  cases side <;> rfl

inductive Effect (c : Column) (baseIdx : Int) (l : List Text) : ExtraOp → Column → Prop where
  | add (text : Text) : Effect c baseIdx l (.add text) (c.set (baseIdx + l.length) text)
  | set (lineIndex : Nat) (text : Text) (hvisible : c.Visible (baseIdx + lineIndex))
    : Effect c baseIdx l (.set lineIndex text) (c.set (baseIdx + lineIndex) text)
  | removeLine (lineIndex : Nat) (hlt : lineIndex < l.length) (c' : Column)
    (hwritten : c'.Overwritten c baseIdx (l.eraseIdx lineIndex))
    : Effect c baseIdx l (.removeLine lineIndex) c'
  | setLines (lines : List Text) (c' : Column) (hwritten : c'.Overwritten c baseIdx lines)
    : Effect c baseIdx l (.setLines lines) c'
  | clear : Effect c baseIdx l .clear (c.removeRun baseIdx)

def Rejected (c : Column) (baseIdx : Int) (l : List Text) : ExtraOp → Prop
  | .set lineIndex _ => ∀ n : Nat, lineIndex = n → ¬ c.Visible (baseIdx + n)
  | .removeLine lineIndex => ∀ n : Nat, lineIndex = n → ¬ n < l.length
  | _ => False

theorem addExtra_eq {baseIdx : Int} (hbase : 0 ≤ baseIdx) (ea : Address) (text : Text) (s : Store)
    : addExtra baseIdx ea text s
      = (ok, Function.update s ea ((s ea).set (baseIdx + (lines s ea baseIdx).length) text)) := by
  simp only [addExtra, freeSlot_eq s ea hbase, updateExtraCmt]

theorem setExtra_cases (baseIdx : Int) (negative notFound : String) (ea : Address) (lineIndex : Int)
    (text : Text) (s : Store)
    : ((∃ e, setExtra baseIdx negative notFound ea lineIndex text s = (.error e, s))
        ∧ ∀ n : Nat, lineIndex = n → ¬ (s ea).Visible (baseIdx + n))
      ∨ ∃ n : Nat, lineIndex = n ∧ (s ea).Visible (baseIdx + n)
        ∧ setExtra baseIdx negative notFound ea lineIndex text s
          = (ok, Function.update s ea ((s ea).set (baseIdx + n) text)) := by
  unfold setExtra
  split
  . refine Or.inl ⟨⟨_, rfl⟩, ?_⟩
    omega
  . next hnonneg =>
    split
    . next hlength =>
      refine Or.inl ⟨⟨_, rfl⟩, ?_⟩
      rintro n rfl hvisible
      rw [← getExtraCmt_pos_iff] at hvisible
      omega
    . next hlength =>
      have hn : lineIndex = lineIndex.toNat := by omega
      have hvisible : (s ea).Visible (baseIdx + lineIndex) := by
        rw [← getExtraCmt_pos_iff]
        omega
      rw [hn] at hvisible ⊢
      exact Or.inr ⟨_, rfl, hvisible, rfl⟩

theorem removeExtraLine_cases (baseIdx : Int) (negative notFound : String) (ea : Address)
    (lineIndex : Int) (s : Store)
    : ((∃ e, removeExtraLine baseIdx negative notFound ea lineIndex s = (.error e, s))
        ∧ ∀ n : Nat, lineIndex = n → ¬ n < (lines s ea baseIdx).length)
      ∨ ∃ n : Nat, lineIndex = n ∧ n < (lines s ea baseIdx).length
        ∧ removeExtraLine baseIdx negative notFound ea lineIndex s
          = setExtraLines ea baseIdx ((lines s ea baseIdx).eraseIdx n) s := by
  simp only [removeExtraLine, collectExtraLines_eq]
  split
  . refine Or.inl ⟨⟨_, rfl⟩, ?_⟩
    omega
  . next hnonneg =>
    split
    . refine Or.inl ⟨⟨_, rfl⟩, ?_⟩
      omega
    . next hlt =>
      exact Or.inr ⟨lineIndex.toNat, by omega, by omega, rfl⟩

theorem run_cases (side : Side) (ea : Address) (s : Store) (op : ExtraOp)
    : ((∃ e, op.run ea s side = (.error e, s))
        ∧ Rejected (s ea) side.baseIdx (lines s ea side.baseIdx) op)
      ∨ (op.run ea s side).1 = ok
        ∧ Effect (s ea) side.baseIdx (lines s ea side.baseIdx) op ((op.run ea s side).2 ea) := by
  have hbase := side.baseIdx_nonneg
  cases op with
  | add text =>
    have hrun : ExtraOp.run ea s side (.add text) = addExtra side.baseIdx ea text s := by
      cases side <;> rfl
    rw [hrun, addExtra_eq hbase]
    refine Or.inr ⟨rfl, ?_⟩
    simp only [Function.update_self]
    apply Effect.add
  | set lineIndex text =>
    have hrun : ∃ negative notFound, ExtraOp.run ea s side (.set lineIndex text)
        = setExtra side.baseIdx negative notFound ea lineIndex text s := by
      cases side <;> exact ⟨_, _, rfl⟩
    rcases hrun with ⟨negative, notFound, hrun⟩
    rw [hrun]
    rcases setExtra_cases side.baseIdx negative notFound ea lineIndex text s
      with herror | ⟨n, rfl, hvisible, heq⟩
    . apply Or.inl herror
    . rw [heq]
      refine Or.inr ⟨rfl, ?_⟩
      simp only [Function.update_self]
      apply Effect.set n text hvisible
  | removeLine lineIndex =>
    have hrun : ∃ negative notFound, ExtraOp.run ea s side (.removeLine lineIndex)
        = removeExtraLine side.baseIdx negative notFound ea lineIndex s := by
      cases side <;> exact ⟨_, _, rfl⟩
    rcases hrun with ⟨negative, notFound, hrun⟩
    rw [hrun]
    rcases removeExtraLine_cases side.baseIdx negative notFound ea lineIndex s
      with herror | ⟨n, rfl, hlt, heq⟩
    . apply Or.inl herror
    . rw [heq]
      rcases setExtraLines_spec ea side.baseIdx ((lines s ea side.baseIdx).eraseIdx n) s
        with ⟨hok, hwritten⟩
      exact Or.inr ⟨hok, Effect.removeLine n hlt _ hwritten⟩
  | setLines ls =>
    have hrun : ExtraOp.run ea s side (.setLines ls) = setExtraLines ea side.baseIdx ls s := by
      cases side <;> rfl
    rw [hrun]
    rcases setExtraLines_spec ea side.baseIdx ls s with ⟨hok, hwritten⟩
    exact Or.inr ⟨hok, Effect.setLines ls _ hwritten⟩
  | clear =>
    have hrun : ExtraOp.run ea s side .clear = (ok, deleteExtraCmts ea side.baseIdx s) := by
      cases side <;> rfl
    rw [hrun]
    refine Or.inr ⟨rfl, ?_⟩
    simp only [deleteExtraCmts, Function.update_self]
    apply Effect.clear

end Operations

end Comment
end Idax
