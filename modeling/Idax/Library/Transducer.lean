import Mathlib.Algebra.BigOperators.Group.List.Basic
import Mathlib.Algebra.GroupWithZero.Nat
import Mathlib.Data.List.Basic
import Mathlib.Data.List.Count

/-!
Runs of a machine that reads symbols one after the other, writes some output at each of them, and may
get stuck. A text that is put together from pieces is read piece by piece.
-/

namespace Transducer

variable {σ : Type u} {α : Type v} {β : Type w} (step : σ → α → Option (σ × List β))

def run (s : σ) : List α → Option (σ × List β)
  | [] => some (s, [])
  | a :: as =>
    match step s a with
    | none => none
    | some (s', out) => (run s' as).map fun (s'', more) => (s'', out ++ more)

variable {step} {s s' s'' : σ} {xs ys : List α} {out out' : List β} {a : α}

@[simp]
theorem run_nil : run step s [] = some (s, []) :=
  rfl

theorem run_cons (h : step s a = some (s', out)) (h' : run step s' xs = some (s'', out'))
    : run step s (a :: xs) = some (s'', out ++ out') := by
  simp [run, h, h']

theorem run_cons_eq_some (h : run step s (a :: xs) = some (s'', out))
    : ∃ s' first rest, step s a = some (s', first) ∧ run step s' xs = some (s'', rest)
        ∧ out = first ++ rest := by
  unfold run at h
  split at h
  . cases h
  . next s' first hstep =>
    rw [Option.map_eq_some_iff] at h
    rcases h with ⟨⟨t, rest⟩, hrest, heq⟩
    cases heq
    exact ⟨s', first, rest, hstep, hrest, rfl⟩

theorem run_append (h : run step s xs = some (s', out)) (h' : run step s' ys = some (s'', out'))
    : run step s (xs ++ ys) = some (s'', out ++ out') := by
  induction xs generalizing s out with
  | nil =>
    cases h
    exact h'
  | cons a xs ih =>
    rcases run_cons_eq_some h with ⟨t, first, rest, hstep, hrest, heq⟩
    rw [heq, List.append_assoc]
    apply run_cons hstep (ih hrest)

theorem run_append_eq_some (h : run step s (xs ++ ys) = some (s'', out))
    : ∃ s' first rest, run step s xs = some (s', first) ∧ run step s' ys = some (s'', rest)
        ∧ out = first ++ rest := by
  induction xs generalizing s out with
  | nil => exact ⟨s, [], out, rfl, h, rfl⟩
  | cons a xs ih =>
    rcases run_cons_eq_some h with ⟨t, first, rest, hstep, hrest, heq⟩
    rcases ih hrest with ⟨u, more, last, hmore, hlast, heq'⟩
    refine ⟨u, first ++ more, last, run_cons hstep hmore, hlast, ?_⟩
    rw [heq, heq', List.append_assoc]

theorem run_flatMap {γ : Type x} {pieces : List γ} {text : γ → List α} {outcome : γ → List β}
    (h : ∀ piece ∈ pieces, run step s (text piece) = some (s, outcome piece))
    : run step s (pieces.flatMap text) = some (s, pieces.flatMap outcome) := by
  induction pieces with
  | nil => rfl
  | cons piece pieces ih =>
    rw [List.flatMap_cons, List.flatMap_cons]
    apply run_append (h piece (by simp))
    apply ih
    intro other hother
    apply h other (by simp [hother])

theorem run_collect {γ : Type x} (collected : List γ → σ) (f : α → γ)
    (h : ∀ a ∈ xs, ∀ acc, step (collected acc) a = some (collected (acc ++ [f a]), []))
    (acc : List γ) : run step (collected acc) xs = some (collected (acc ++ xs.map f), []) := by
  induction xs generalizing acc with
  | nil => simp
  | cons a xs ih =>
    have hrest := ih (fun b hb => h b (by simp [hb])) (acc ++ [f a])
    rw [List.append_assoc] at hrest
    exact run_cons (h a (by simp) acc) hrest

theorem run_invariant {I : σ → Prop} {P : β → Prop}
    (hstep : ∀ s a s' out, I s → a ∈ xs → step s a = some (s', out) → I s' ∧ ∀ b ∈ out, P b)
    (hs : I s) (h : run step s xs = some (s', out)) : I s' ∧ ∀ b ∈ out, P b := by
  induction xs generalizing s out with
  | nil =>
    cases h
    simp [hs]
  | cons a xs ih =>
    rcases run_cons_eq_some h with ⟨t, first, rest, hfirst, hrest, heq⟩
    have hone := hstep s a t first hs (by simp) hfirst
    have hmore := ih (fun s b s' out hI hb => hstep s b s' out hI (by simp [hb])) hone.left hrest
    refine ⟨hmore.left, ?_⟩
    intro b hb
    rw [heq, List.mem_append] at hb
    cases hb with
    | inl hb => apply hone.right b hb
    | inr hb => apply hmore.right b hb

theorem run_count [BEq α] {I : σ → Prop} {symbol : α} {pending : σ → Nat} {written : β → Nat}
    (hstep : ∀ s a s' out, I s → step s a = some (s', out)
      → I s' ∧ [a].count symbol + pending s = pending s' + (out.map written).sum)
    (hs : I s) (h : run step s xs = some (s', out))
    : xs.count symbol + pending s = pending s' + (out.map written).sum := by
  induction xs generalizing s out with
  | nil =>
    cases h
    simp
  | cons a xs ih =>
    rcases run_cons_eq_some h with ⟨t, first, rest, hfirst, hrest, heq⟩
    have hone := hstep s a t first hs hfirst
    have hmore := ih hone.left hrest
    have hcount := hone.right
    rw [heq, List.map_append, List.sum_append, ← List.singleton_append, List.count_append]
    omega

end Transducer
