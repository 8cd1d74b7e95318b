import Mathlib.Data.List.Infix

/-!
Runs of a deterministic machine, given by its step function. The main result says when an
invariant holds along a whole run: exactly when each step of the run meets a guard, as soon as
this is so for one step taken from a state with the invariant.
-/

namespace Machine

variable {σ : Type u} {α : Type v} (step : σ → α → σ)

def run (s : σ) : List α → σ
  | [] => s
  | a :: as => run (step s a) as

def Always (I : σ → Prop) (s : σ) : List α → Prop
  | [] => I s
  | a :: as => I s ∧ Always I (step s a) as

def Guarded (G : σ → α → Prop) (s : σ) : List α → Prop
  | [] => True
  | a :: as => G s a ∧ Guarded G (step s a) as

variable {step} {I : σ → Prop} {G : σ → α → Prop}

theorem always_start {s : σ} {as : List α} (h : Always step I s as) : I s := by
  cases as with
  | nil => exact h
  | cons a as => exact h.left

theorem always_run {s : σ} {as : List α} (h : Always step I s as) : I (run step s as) := by
  induction as generalizing s with
  | nil => exact h
  | cons a as ih => apply ih h.right

theorem always_iff_guarded_of_allowed {J : σ → Prop} {A : σ → α → Prop}
    (hinv : ∀ (s : σ) (a : α), J s → A s a → J (step s a))
    (hstep : ∀ (s : σ) (a : α), J s → A s a → I s → (I (step s a) ↔ G s a))
    {s : σ} (hJ : J s) (hs : I s) {as : List α} (hallowed : Guarded step A s as)
    : Always step I s as ↔ Guarded step G s as := by
  induction as generalizing s with
  | nil => simp [Always, Guarded, hs]
  | cons a as ih =>
    rcases hallowed with ⟨ha, hallowed⟩
    have hJ' := hinv s a hJ ha
    simp only [Always, Guarded]
    constructor
    . intro ⟨_, hrest⟩
      have hnext : I (step s a) := always_start hrest
      exact ⟨(hstep s a hJ ha hs).mp hnext, (ih hJ' hnext hallowed).mp hrest⟩
    . intro ⟨hguard, hrest⟩
      have hnext : I (step s a) := (hstep s a hJ ha hs).mpr hguard
      exact ⟨hs, (ih hJ' hnext hallowed).mpr hrest⟩

theorem guarded_of_forall (hG : ∀ (s : σ) (a : α), G s a) (s : σ) (as : List α)
    : Guarded step G s as := by
  induction as generalizing s with
  | nil => trivial
  | cons a as ih => exact ⟨hG s a, ih (step s a)⟩

theorem always_iff_guarded_of_invariant {J : σ → Prop}
    (hinv : ∀ (s : σ) (a : α), J s → J (step s a))
    (hstep : ∀ (s : σ) (a : α), J s → I s → (I (step s a) ↔ G s a))
    {s : σ} (hJ : J s) (hs : I s) (as : List α)
    : Always step I s as ↔ Guarded step G s as :=
  always_iff_guarded_of_allowed (A := fun _ _ => True) (fun s a h _ => hinv s a h)
    (fun s a h _ => hstep s a h) hJ hs (guarded_of_forall (fun _ _ => trivial) s as)

theorem always_iff_guarded (hstep : ∀ (s : σ) (a : α), I s → (I (step s a) ↔ G s a))
    {s : σ} (hs : I s) (as : List α)
    : Always step I s as ↔ Guarded step G s as :=
  always_iff_guarded_of_invariant (J := fun _ => True) (fun _ _ _ => trivial)
    (fun s a _ => hstep s a) trivial hs as

theorem guarded_iff_of_invariant {J : σ → Prop} {G' : σ → α → Prop}
    (hguard : ∀ (s : σ) (a : α), J s → (G s a ↔ G' s a))
    (hinv : ∀ (s : σ) (a : α), J s → G s a → J (step s a)) {s : σ} (hJ : J s) (as : List α)
    : Guarded step G s as ↔ Guarded step G' s as := by
  induction as generalizing s with
  | nil => exact Iff.rfl
  | cons a as ih =>
    simp only [Guarded, ← hguard s a hJ]
    apply and_congr_right
    intro ha
    apply ih (hinv s a hJ ha)

end Machine
