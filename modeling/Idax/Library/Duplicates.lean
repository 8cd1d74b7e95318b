import Mathlib.Data.List.Induction
import Mathlib.Data.List.Nodup

/-!
Two ways to leave out what is in a list already while it is collected: compared with the last entry
only, or with all of them.
-/

namespace Duplicates

variable {α : Type u} [DecidableEq α] {l : List α} {a b : α}

def pushUnlessLast (acc : List α) (a : α) : List α :=
  if acc.getLast? = some a then acc else acc ++ [a]

def dropAdjacent (l : List α) : List α :=
  l.foldl pushUnlessLast []

def pushUnlessMember (acc : List α) (a : α) : List α :=
  if a ∈ acc then acc else acc ++ [a]

def dropLater (l : List α) : List α :=
  l.foldl pushUnlessMember []

omit [DecidableEq α] in
theorem foldl_filterMap_elim {β : Type v} {γ : Type w} (f : β → Option α) (g : γ → α → γ)
    (l : List β) (init : γ)
    : (l.filterMap f).foldl g init = l.foldl (fun x y => (f y).elim x (g x)) init := by
  rw [List.foldl_filterMap]
  congr
  funext x y
  cases f y <;> rfl

def Interleaved (l : List α) : Prop :=
  ∃ a b, a ≠ b ∧ [a, b, a].Sublist l

theorem dropAdjacent_append (l : List α) (a : α)
    : dropAdjacent (l ++ [a]) = pushUnlessLast (dropAdjacent l) a := by
  simp [dropAdjacent]

theorem dropLater_append (l : List α) (a : α)
    : dropLater (l ++ [a]) = pushUnlessMember (dropLater l) a := by
  simp [dropLater]

theorem mem_pushUnlessMember {acc : List α} : b ∈ pushUnlessMember acc a ↔ b ∈ acc ∨ b = a := by
  unfold pushUnlessMember
  split
  . next hmem =>
    constructor
    . exact .inl
    . intro h
      cases h with
      | inl h => exact h
      | inr heq =>
        rw [heq]
        exact hmem
  . simp

theorem nodup_pushUnlessMember {acc : List α} (h : acc.Nodup) : (pushUnlessMember acc a).Nodup := by
  unfold pushUnlessMember
  split
  . exact h
  . next hnot =>
    rw [List.nodup_append]
    refine ⟨h, List.nodup_singleton a, ?_⟩
    intro x hx y hy
    rw [List.mem_singleton] at hy
    rw [hy]
    exact fun heq => hnot (heq ▸ hx)

theorem mem_dropLater : b ∈ dropLater l ↔ b ∈ l := by
  induction l using List.reverseRecOn with
  | nil => simp [dropLater]
  | append_singleton l a ih =>
    rw [dropLater_append, mem_pushUnlessMember, ih]
    simp

theorem nodup_dropLater (l : List α) : (dropLater l).Nodup := by
  induction l using List.reverseRecOn with
  | nil => exact .nil
  | append_singleton l a ih =>
    rw [dropLater_append]
    apply nodup_pushUnlessMember ih

theorem getLast?_dropAdjacent (l : List α) : (dropAdjacent l).getLast? = l.getLast? := by
  induction l using List.reverseRecOn with
  | nil => rfl
  | append_singleton l a ih =>
    rw [dropAdjacent_append]
    unfold pushUnlessLast
    split
    . next h => simp [h]
    . simp

theorem mem_pushUnlessLast {acc : List α} : b ∈ pushUnlessLast acc a ↔ b ∈ acc ∨ b = a := by
  unfold pushUnlessLast
  split
  . next hlast =>
    constructor
    . exact .inl
    . intro h
      cases h with
      | inl h => exact h
      | inr heq =>
        rw [heq]
        apply List.mem_of_getLast? hlast
  . simp

theorem mem_dropAdjacent : b ∈ dropAdjacent l ↔ b ∈ l := by
  induction l using List.reverseRecOn with
  | nil => simp [dropAdjacent]
  | append_singleton l a ih =>
    rw [dropAdjacent_append, mem_pushUnlessLast, ih]
    simp

omit [DecidableEq α] in
theorem interleaved_append_iff (l : List α) (a : α)
    : Interleaved (l ++ [a]) ↔ Interleaved l ∨ ∃ b, a ≠ b ∧ [a, b].Sublist l := by
  constructor
  . intro ⟨x, y, hne, hsub⟩
    rw [List.sublist_append_iff] at hsub
    rcases hsub with ⟨l₁, l₂, heq, hl₁, hl₂⟩
    cases List.sublist_singleton.mp hl₂ with
    | inl hnil =>
      rw [hnil, List.append_nil] at heq
      rw [← heq] at hl₁
      exact .inl ⟨x, y, hne, hl₁⟩
    | inr hlast =>
      rw [hlast] at heq
      have hsplit : [x, y] ++ [x] = l₁ ++ [a] := heq
      have ⟨hinit, htail⟩ := List.append_inj' hsplit rfl
      injection htail with htail
      rw [← hinit, htail] at hl₁
      exact .inr ⟨y, htail ▸ hne, hl₁⟩
  . intro h
    cases h with
    | inl h =>
      rcases h with ⟨x, y, hne, hsub⟩
      exact ⟨x, y, hne, hsub.trans (List.sublist_append_left l [a])⟩
    | inr h =>
      rcases h with ⟨b, hne, hsub⟩
      exact ⟨a, b, hne, hsub.append (List.Sublist.refl [a])⟩

omit [DecidableEq α] in
theorem no_other_behind_iff (h : ¬Interleaved l) (ha : a ∈ l)
    : (∀ b, a ≠ b → ¬[a, b].Sublist l) ↔ l.getLast? = some a := by
  induction l using List.reverseRecOn with
  | nil => cases ha
  | append_singleton l c _ =>
    rw [List.getLast?_concat, Option.some.injEq]
    constructor
    . intro hnone
      by_contra hne
      have hmem : a ∈ l := by
        rw [List.mem_append, List.mem_singleton] at ha
        cases ha with
        | inl ha => exact ha
        | inr heq => exact absurd heq.symm hne
      apply hnone c fun heq => hne heq.symm
      exact (List.singleton_sublist.mpr hmem).append (List.Sublist.refl [c])
    . intro heq b hne hsub
      subst heq
      apply h
      rw [interleaved_append_iff]
      rw [List.sublist_append_iff] at hsub
      rcases hsub with ⟨l₁, l₂, hl, hl₁, hl₂⟩
      cases List.sublist_singleton.mp hl₂ with
      | inl hnil =>
        rw [hnil, List.append_nil] at hl
        rw [← hl] at hl₁
        exact .inr ⟨b, hne, hl₁⟩
      | inr hlast =>
        rw [hlast] at hl
        have hsplit : [c] ++ [b] = l₁ ++ [c] := hl
        have ⟨_, htail⟩ := List.append_inj' hsplit rfl
        injection htail with htail
        exact absurd htail.symm hne

/--
Comparing with the last entry only is enough exactly for lists that are not interleaved.
-/
theorem nodup_dropAdjacent_iff (l : List α) : (dropAdjacent l).Nodup ↔ ¬Interleaved l := by
  induction l using List.reverseRecOn with
  | nil =>
    simp only [dropAdjacent, List.foldl_nil, List.nodup_nil, true_iff]
    intro ⟨x, y, _, hsub⟩
    simp at hsub
  | append_singleton l a ih =>
    rw [dropAdjacent_append, interleaved_append_iff, not_or, ← ih]
    unfold pushUnlessLast
    rw [getLast?_dropAdjacent]
    split
    . next hlast =>
      rw [iff_self_and]
      intro hnodup ⟨b, hne, hsub⟩
      have ha := List.mem_of_getLast? hlast
      exact (no_other_behind_iff (ih.mp hnodup) ha).mpr hlast b hne hsub
    . next hlast =>
      rw [List.nodup_append]
      constructor
      . intro ⟨hnodup, _, hdisjoint⟩
        refine ⟨hnodup, ?_⟩
        intro ⟨b, _, hsub⟩
        have ha : a ∈ dropAdjacent l := mem_dropAdjacent.mpr (hsub.subset List.mem_cons_self)
        exact hdisjoint a ha a (List.mem_singleton_self a) rfl
      . intro ⟨hnodup, hnone⟩
        refine ⟨hnodup, List.nodup_singleton a, ?_⟩
        intro x hx y hy
        rw [List.mem_singleton] at hy
        intro heq
        rw [heq, hy, mem_dropAdjacent] at hx
        apply hlast
        apply (no_other_behind_iff (ih.mp hnodup) hx).mp
        intro b hne hsub
        exact hnone ⟨b, hne, hsub⟩

end Duplicates
