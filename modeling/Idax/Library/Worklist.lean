import Mathlib.Data.Finset.Card
import Mathlib.Logic.Function.Basic
import Mathlib.Logic.Relation

/-!
A search for a goal with a queue of nodes that have been seen but not looked at yet. Only nodes that
are admitted enter the queue; the goal is looked for among all successors.
-/

namespace Worklist

variable {α : Type u} [DecidableEq α]

structure State (α : Type u) where
  seen : α → Bool
  queue : List α

section Search

variable (next : α → List α) (admits : α → Bool) (goal : α)

def visit : List α → State α → Option (State α)
  | [], s => some s
  | w :: ws, s =>
    if w = goal then
      none
    else if admits w && !s.seen w then
      visit ws { seen := Function.update s.seen w true, queue := s.queue ++ [w] }
    else
      visit ws s

def search : (fuel : Nat) → State α → Option Bool
  | _, ⟨_, []⟩ => some false
  | 0, ⟨_, _ :: _⟩ => none
  | fuel + 1, ⟨seen, cur :: rest⟩ =>
    match visit admits goal (next cur) ⟨seen, rest⟩ with
    | none => some true
    | some s => search fuel s

def Step (a b : α) : Prop :=
  b ∈ next a ∧ admits b = true

def Finds (source : α) : Prop :=
  ∃ x, Relation.ReflTransGen (Step next admits) source x ∧ goal ∈ next x

structure Invariant (source : α) (s : State α) : Prop where
  source_seen : s.seen source = true
  reached : ∀ x, s.seen x = true → Relation.ReflTransGen (Step next admits) source x
  queue_seen : ∀ x ∈ s.queue, s.seen x = true
  looked_at : ∀ x, s.seen x = true → x ∉ s.queue
    → goal ∉ next x ∧ ∀ w ∈ next x, admits w = true → s.seen w = true

end Search

def unseen (domain : Finset α) (s : State α) : Nat :=
  (domain.filter fun x => s.seen x = false).card

variable {next : α → List α} {admits : α → Bool} {goal : α} {domain : Finset α}

theorem visit_eq_none_iff (admits : α → Bool) (ws : List α) (s : State α)
    : visit admits goal ws s = none ↔ goal ∈ ws := by
  induction ws generalizing s with
  | nil => simp [visit]
  | cons w ws ih =>
    unfold visit
    split
    . next heq => simp [heq]
    . next hne =>
      have : goal ≠ w := fun h => hne h.symm
      split
      . simp [ih, this]
      . simp [ih, this]

theorem mem_of_visit {ws : List α} {s s' : State α} (h : visit admits goal ws s = some s') (x : α)
    : (s'.seen x = true ↔ s.seen x = true ∨ (x ∈ ws ∧ admits x = true))
      ∧ (x ∈ s'.queue ↔ x ∈ s.queue ∨ (x ∈ ws ∧ admits x = true ∧ s.seen x = false)) := by
  induction ws generalizing s with
  | nil =>
    cases h
    simp
  | cons w ws ih =>
    unfold visit at h
    split at h
    . cases h
    . split at h
      . next hfresh =>
        rw [Bool.and_eq_true, Bool.not_eq_true'] at hfresh
        have ⟨hseen, hqueue⟩ := ih h
        rw [hseen, hqueue]
        by_cases heq : x = w
        . subst heq
          simp [hfresh]
        . simp [heq]
      . next hold =>
        have ⟨hseen, hqueue⟩ := ih h
        rw [hseen, hqueue]
        by_cases heq : x = w
        . subst heq
          simp at hold
          by_cases hadmits : admits x = true
          . simp [hadmits, hold hadmits]
          . simp [hadmits]
        . simp [heq]

theorem unseen_update {s : State α} {w : α} (queue : List α) (hw : w ∈ domain)
    (hfresh : s.seen w = false)
    : unseen domain { seen := Function.update s.seen w true, queue } + 1 = unseen domain s := by
  have hmem : w ∈ domain.filter fun x => s.seen x = false := by
    rw [Finset.mem_filter]
    exact ⟨hw, hfresh⟩
  have hfilter : (domain.filter fun x => Function.update s.seen w true x = false)
      = (domain.filter fun x => s.seen x = false).erase w := by
    ext x
    rw [Finset.mem_erase, Finset.mem_filter, Finset.mem_filter]
    by_cases heq : x = w
    . simp [heq]
    . simp [heq]
  unfold unseen
  rw [hfilter, Finset.card_erase_add_one hmem]

theorem measure_of_visit (hdomain : ∀ x, admits x = true → x ∈ domain) {ws : List α} {s s' : State α}
    (h : visit admits goal ws s = some s')
    : unseen domain s' + s'.queue.length = unseen domain s + s.queue.length := by
  induction ws generalizing s with
  | nil =>
    cases h
    rfl
  | cons w ws ih =>
    unfold visit at h
    split at h
    . cases h
    . split at h
      . next hfresh =>
        rw [Bool.and_eq_true, Bool.not_eq_true'] at hfresh
        have hupdate := unseen_update (s.queue ++ [w]) (hdomain w hfresh.left) hfresh.right
        rw [ih h, List.length_append, List.length_singleton]
        omega
      . apply ih h

theorem Invariant.visit {source cur : α} {rest : List α} {seen : α → Bool} {s' : State α}
    (hinv : Invariant next admits goal source ⟨seen, cur :: rest⟩)
    (h : visit admits goal (next cur) ⟨seen, rest⟩ = some s')
    : Invariant next admits goal source s' := by
  have hseen := fun x => (mem_of_visit h x).left
  have hqueue := fun x => (mem_of_visit h x).right
  have hcur : seen cur = true := hinv.queue_seen cur List.mem_cons_self
  have hgoal : goal ∉ next cur := by
    rw [← visit_eq_none_iff admits (next cur) ⟨seen, rest⟩, h]
    simp
  constructor
  case source_seen =>
    rw [hseen]
    exact .inl hinv.source_seen
  case reached =>
    intro x hx
    rw [hseen] at hx
    cases hx with
    | inl hold => apply hinv.reached x hold
    | inr hnew => exact .tail (hinv.reached cur hcur) hnew
  case queue_seen =>
    intro x hx
    rw [hqueue] at hx
    rw [hseen]
    cases hx with
    | inl hold => exact .inl (hinv.queue_seen x (List.mem_cons_of_mem cur hold))
    | inr hnew => exact .inr ⟨hnew.left, hnew.right.left⟩
  case looked_at =>
    intro x hx hnot
    rw [hqueue, not_or] at hnot
    rw [hseen] at hx
    have hold : seen x = true := by
      by_contra hfresh
      rw [Bool.not_eq_true] at hfresh
      cases hx with
      | inl hseenx =>
        exact absurd hseenx (by simp [hfresh])
      | inr hnew => exact hnot.right ⟨hnew.left, hnew.right, hfresh⟩
    by_cases heq : x = cur
    . subst heq
      refine ⟨hgoal, ?_⟩
      intro w hw hadmits
      rw [hseen]
      exact .inr ⟨hw, hadmits⟩
    . have ⟨hgoalx, hnext⟩ := hinv.looked_at x hold (by simp [heq, hnot.left])
      refine ⟨hgoalx, ?_⟩
      intro w hw hadmits
      rw [hseen]
      exact .inl (hnext w hw hadmits)

omit [DecidableEq α] in
theorem Invariant.not_finds {source : α} {seen : α → Bool}
    (hinv : Invariant next admits goal source ⟨seen, []⟩) : ¬Finds next admits goal source := by
  intro ⟨x, hpath, hgoal⟩
  have hx : seen x = true := by
    clear hgoal
    induction hpath with
    | refl => apply hinv.source_seen
    | tail _ hstep ih =>
      have hlooked := hinv.looked_at _ ih List.not_mem_nil
      apply hlooked.right _ hstep.left hstep.right
  apply (hinv.looked_at x hx List.not_mem_nil).left hgoal

theorem search_of_invariant (hdomain : ∀ x, admits x = true → x ∈ domain) {source : α} {fuel : Nat}
    {s : State α} (hinv : Invariant next admits goal source s)
    (hfuel : unseen domain s + s.queue.length ≤ fuel)
    : ∃ b, search next admits goal fuel s = some b ∧ (b = true ↔ Finds next admits goal source) := by
  induction fuel generalizing s with
  | zero =>
    rcases s with ⟨seen, _ | ⟨cur, rest⟩⟩
    . exact ⟨false, rfl, by simp [hinv.not_finds]⟩
    . simp at hfuel
  | succ fuel ih =>
    rcases s with ⟨seen, _ | ⟨cur, rest⟩⟩
    . exact ⟨false, rfl, by simp [hinv.not_finds]⟩
    . unfold search
      cases hvisit : visit admits goal (next cur) ⟨seen, rest⟩ with
      | none =>
        refine ⟨true, rfl, ?_⟩
        have hcur := hinv.reached cur (hinv.queue_seen cur List.mem_cons_self)
        simp only [true_iff]
        exact ⟨cur, hcur, (visit_eq_none_iff admits _ _).mp hvisit⟩
      | some s' =>
        apply ih (hinv.visit hvisit)
        have hmeasure := measure_of_visit hdomain hvisit
        have hsame : unseen domain ⟨seen, cur :: rest⟩ = unseen domain ⟨seen, rest⟩ := rfl
        rw [hsame, List.length_cons] at hfuel
        dsimp only at hmeasure
        omega

def start (source : α) : State α :=
  { seen := fun x => x == source, queue := [source] }

theorem invariant_start (source : α) : Invariant next admits goal source (start source) := by
  constructor
  case source_seen => simp [start]
  case reached =>
    intro x hx
    simp only [start, beq_iff_eq] at hx
    rw [hx]
  case queue_seen => simp [start]
  case looked_at =>
    intro x hx hnot
    simp only [start, beq_iff_eq] at hx
    simp [start, hx] at hnot

/--
With enough turns, one for the source and one for each node that can be admitted, the search ends and
tells whether the goal is a successor of some node reached.
-/
theorem search_start (hdomain : ∀ x, admits x = true → x ∈ domain) (source : α)
    : ∃ b, (∀ fuel, domain.card + 1 ≤ fuel → search next admits goal fuel (start source) = some b)
        ∧ (b = true ↔ Finds next admits goal source) := by
  have hfuel : ∀ fuel, domain.card + 1 ≤ fuel
      → unseen domain (start source) + (start source).queue.length ≤ fuel := by
    intro fuel hfuel
    have := Finset.card_filter_le domain fun x => (start source).seen x = false
    simp only [unseen, start, List.length_singleton] at this ⊢
    omega
  by_cases hfinds : Finds next admits goal source
  . refine ⟨true, ?_, by simp [hfinds]⟩
    intro fuel hle
    rcases search_of_invariant hdomain (invariant_start source) (hfuel fuel hle) with ⟨b, hb, hiff⟩
    rw [hb, hiff.mpr hfinds]
  . refine ⟨false, ?_, by simp [hfinds]⟩
    intro fuel hle
    rcases search_of_invariant hdomain (invariant_start source) (hfuel fuel hle) with ⟨b, hb, hiff⟩
    rw [hb, Option.some.injEq, ← Bool.not_eq_true, hiff]
    apply hfinds

end Worklist
