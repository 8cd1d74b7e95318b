import Mathlib.Data.List.TakeWhile
import Mathlib.Logic.Function.Basic

/-!
Strings that end at their first NUL, as routines read them that are only given where a string begins,
and views of some bytes in a larger buffer that are handed to such routines.
-/

namespace CString

/--
What is read of some bytes through a pointer to the first of them, where a NUL follows the last one.
-/
def read (bytes : List UInt8) : List UInt8 :=
  bytes.takeWhile (· ≠ 0)

theorem zero_not_mem_read (bytes : List UInt8) : 0 ∉ read bytes := by
  intro hmem
  have hne := List.mem_takeWhile_imp hmem
  simp at hne

theorem read_eq_self_iff {bytes : List UInt8} : read bytes = bytes ↔ 0 ∉ bytes := by
  unfold read
  rw [List.takeWhile_eq_self_iff]
  constructor
  . intro hne hmem
    have := hne 0 hmem
    simp at this
  . intro hmem b hb
    simp only [decide_eq_true_eq]
    rintro rfl
    apply hmem hb

@[simp]
theorem read_nil : read [] = [] :=
  rfl

theorem zero_not_mem_append {a b : List UInt8} (ha : 0 ∉ a) (hb : 0 ∉ b) : 0 ∉ a ++ b := by
  rw [List.mem_append, not_or]
  exact ⟨ha, hb⟩

theorem read_append_of_mem {a b : List UInt8} (h : 0 ∈ a) : read (a ++ b) = read a := by
  unfold read
  rw [List.takeWhile_append, if_neg]
  intro hlength
  have heq := (List.takeWhile_sublist _).eq_of_length hlength
  apply read_eq_self_iff.mp heq h

theorem read_append_of_not_mem {a b : List UInt8} (h : 0 ∉ a) : read (a ++ b) = a ++ read b := by
  apply List.takeWhile_append_of_pos
  intro x hx
  rw [decide_eq_true_eq]
  rintro rfl
  apply h hx

theorem read_terminated (a : List UInt8) : read (a ++ [0]) = read a := by
  by_cases h : 0 ∈ a
  . apply read_append_of_mem h
  . rw [read_append_of_not_mem h, read_eq_self_iff.mpr h]
    apply List.append_nil

/--
A view of `contents`, which `rest` follows in the viewed buffer, up to the NUL that ends the buffer.
-/
structure View where
  contents : List UInt8
  rest : List UInt8
  deriving DecidableEq, Repr

namespace View

def memory (v : View) : List UInt8 :=
  v.contents ++ v.rest ++ [0]

def readAt (v : View) (pos : Nat) : List UInt8 :=
  read (v.memory.drop pos)

theorem readAt_eq (v : View) {pos : Nat} (hpos : pos ≤ v.contents.length)
    : v.readAt pos = read (v.contents.drop pos ++ v.rest) := by
  rw [readAt, memory, List.append_assoc, List.drop_append_of_le_length hpos]
  rw [← List.append_assoc, read_terminated]

end View

def Confined (contents : List UInt8) (f : View → β) : Prop :=
  ∀ v w : View, v.contents = contents → w.contents = contents → f v = f w

theorem confined_of_eq {contents : List UInt8} {f : View → β} (b : β)
    (h : ∀ v : View, v.contents = contents → f v = b) : Confined contents f := by
  intro v w hv hw
  rw [h v hv, h w hw]

theorem confined_congr {contents : List UInt8} {f g : View → β}
    (h : ∀ v : View, v.contents = contents → f v = g v)
    : Confined contents f ↔ Confined contents g := by
  unfold Confined
  constructor
  . intro hf v w hv hw
    rw [← h v hv, ← h w hw]
    apply hf v w hv hw
  . intro hg v w hv hw
    rw [h v hv, h w hw]
    apply hg v w hv hw

theorem confined_comp_iff {contents : List UInt8} {f : View → β} {g : β → γ}
    (hg : Function.Injective g) : Confined contents (fun v => g (f v)) ↔ Confined contents f := by
  constructor
  . intro h v w hv hw
    apply hg (h v w hv hw)
  . intro h v w hv hw
    dsimp only
    rw [h v w hv hw]

/--
A routine that is given a pointer into a view is confined to the view exactly when a NUL follows in
the view, or its result is decided by the bytes of the view.
-/
theorem confined_readAt_iff {contents : List UInt8} {pos : Nat} (hpos : pos ≤ contents.length)
    (f : List UInt8 → β)
    : Confined contents (fun v => f (v.readAt pos))
        ↔ 0 ∈ contents.drop pos
          ∨ ∀ t, 0 ∉ t → f (contents.drop pos ++ t) = f (contents.drop pos) := by
  by_cases hmem : 0 ∈ contents.drop pos
  . have hconfined : Confined contents (fun v => f (v.readAt pos)) := by
      apply confined_of_eq (f (read (contents.drop pos)))
      rintro v rfl
      rw [v.readAt_eq hpos, read_append_of_mem hmem]
    exact ⟨fun _ => .inl hmem, fun _ => hconfined⟩
  . have hread : ∀ rest, (View.mk contents rest).readAt pos = contents.drop pos ++ read rest := by
      intro rest
      rw [View.readAt_eq _ hpos, read_append_of_not_mem hmem]
    constructor
    . intro hconfined
      refine .inr ?_
      intro t ht
      have heq : f ((View.mk contents t).readAt pos) = f ((View.mk contents []).readAt pos) :=
        hconfined _ _ rfl rfl
      rw [hread, hread, read_eq_self_iff.mpr ht, read_nil, List.append_nil] at heq
      apply heq
    . intro h
      have hdecided := h.resolve_left hmem
      apply confined_of_eq (f (contents.drop pos))
      rintro ⟨contents, rest⟩ rfl
      rw [hread]
      apply hdecided _ (zero_not_mem_read rest)

def Distinguishes (f : List UInt8 → β) : Prop :=
  ∀ s, 0 ∉ s → ∃ t, 0 ∉ t ∧ f (s ++ t) ≠ f s

theorem distinguishes_of_injective {f : List UInt8 → β} (hf : Function.Injective f)
    : Distinguishes f := by
  intro s _
  refine ⟨[1], by decide, ?_⟩
  intro heq
  have hlength := congrArg List.length (hf heq)
  rw [List.length_append, List.length_singleton] at hlength
  omega

theorem confined_start_iff {contents : List UInt8} {f : List UInt8 → β} (hf : Distinguishes f)
    : Confined contents (fun v => f (v.readAt 0)) ↔ 0 ∈ contents := by
  rw [confined_readAt_iff (Nat.zero_le _), List.drop_zero]
  constructor
  . intro h
    by_contra hmem
    rcases hf contents hmem with ⟨t, ht, hne⟩
    apply hne (h.resolve_left hmem t ht)
  . exact .inl

theorem confined_nonempty_iff {contents : List UInt8} {f : List UInt8 → β} (hf : Distinguishes f)
    (b : β)
    : Confined contents (fun v => if v.contents.isEmpty then b else f (v.readAt 0))
        ↔ contents = [] ∨ 0 ∈ contents := by
  by_cases hempty : contents = []
  . have hconfined : Confined contents
        (fun v => if v.contents.isEmpty then b else f (v.readAt 0)) := by
      apply confined_of_eq b
      rintro v rfl
      rw [hempty]
      rfl
    exact ⟨fun _ => .inl hempty, fun _ => hconfined⟩
  . rw [confined_congr (g := fun v => f (v.readAt 0))]
    . rw [confined_start_iff hf]
      simp only [hempty, false_or]
    . rintro v rfl
      simp [hempty]

end CString
