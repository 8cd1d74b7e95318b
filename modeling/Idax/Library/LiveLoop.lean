import Mathlib.Data.List.Basic
import Mathlib.Data.List.Find
import Mathlib.Data.List.Pairwise
import Mathlib.Data.Nat.Find

/-!
Loops over the keys of an ordered map that the loop body may change. The iterator stays at the key
that is visited; when that key is gone by the time the iterator is advanced, the loop has a fault.
Such a loop is compared with one that goes over a fixed list of keys and skips those that are gone.
-/

namespace LiveLoop

variable {σ : Type u} (keys : σ → List Nat) (visit : Nat → σ → Option σ)

def seek (s : σ) (c : Nat) : Option Nat :=
  (keys s).find? (c ≤ ·)

inductive Outcome (σ : Type u) where
  | running
  | fault
  | done (s : σ)

def loop : (fuel : Nat) → Option Nat → σ → Outcome σ
  | 0, _, _ => .running
  | _ + 1, none, s => .done s
  | fuel + 1, some t, s =>
    match visit t s with
    | none => .fault
    | some s' => if t ∈ keys s' then loop fuel (seek keys s' (t + 1)) s' else .fault

inductive Ends : Option Nat → σ → Option σ → Prop where
  | done {s} : Ends none s (some s)
  | fault {t s} (hvisit : visit t s = none) : Ends (some t) s none
  | lost {t s s'} (hvisit : visit t s = some s') (ht : t ∉ keys s') : Ends (some t) s none
  | step {t s s' out} (hvisit : visit t s = some s') (ht : t ∈ keys s')
    (hrest : Ends (seek keys s' (t + 1)) s' out) : Ends (some t) s out

def outcomeOf : Option σ → Outcome σ
  | none => .fault
  | some s => .done s

variable {keys visit}

theorem Ends.exists_bound {it : Option Nat} {s : σ} {out : Option σ} (h : Ends keys visit it s out)
    : ∃ bound, ∀ fuel, bound ≤ fuel → loop keys visit fuel it s = outcomeOf out := by
  have succ_fuel : ∀ {it : Option Nat} {s : σ} {out : Outcome σ} (bound : Nat),
      (∀ fuel, bound ≤ fuel → loop keys visit (fuel + 1) it s = out)
        → ∃ bound, ∀ fuel, bound ≤ fuel → loop keys visit fuel it s = out := by
    intro it s out bound h
    refine ⟨bound + 1, ?_⟩
    intro fuel hfuel
    cases fuel with
    | zero => omega
    | succ fuel =>
      apply h
      omega
  induction h with
  | done =>
    apply succ_fuel 0
    intro fuel _
    rfl
  | fault hvisit =>
    apply succ_fuel 0
    intro fuel _
    simp [loop, hvisit, outcomeOf]
  | lost hvisit ht =>
    apply succ_fuel 0
    intro fuel _
    simp [loop, hvisit, ht, outcomeOf]
  | step hvisit ht _ ih =>
    rcases ih with ⟨bound, ih⟩
    apply succ_fuel bound
    intro fuel hfuel
    simp [loop, hvisit, ht, ih fuel hfuel]

theorem ends_of_loop {fuel : Nat} {it : Option Nat} {s s' : σ}
    (h : loop keys visit fuel it s = .done s') : Ends keys visit it s (some s') := by
  induction fuel generalizing it s with
  | zero => cases h
  | succ fuel ih =>
    cases it with
    | none =>
      cases h
      apply Ends.done
    | some t =>
      rw [loop] at h
      split at h
      . cases h
      . next s1 hvisit =>
        split at h
        . next ht => apply Ends.step hvisit ht (ih h)
        . cases h

theorem Ends.unique {it : Option Nat} {s : σ} {out out' : Option σ} (h : Ends keys visit it s out)
    (h' : Ends keys visit it s out') : out = out' := by
  rcases h.exists_bound with ⟨b, hb⟩
  rcases h'.exists_bound with ⟨b', hb'⟩
  have heq := (hb (max b b') (by omega)).symm.trans (hb' (max b b') (by omega))
  cases out <;> cases out' <;> simp_all [outcomeOf]

theorem Ends.invariant {P : σ → Prop} {it : Option Nat} {s : σ} {out : Option σ} {s' : σ}
    (h : Ends keys visit it s out) (hP : ∀ t s s', visit t s = some s' → P s → P s')
    (hout : out = some s') (hs : P s) : P s' := by
  induction h with
  | done =>
    cases hout
    apply hs
  | fault => cases hout
  | lost => cases hout
  | step hvisit _ _ ih => apply ih hout (hP _ _ _ hvisit hs)

section Seek

theorem seek_eq_none_iff {s : σ} {c : Nat}
    : seek keys s c = none ↔ ∀ k, k ∈ keys s → k < c := by
  simp [seek]

theorem seek_congr {s : σ} {c d : Nat} (h : ∀ k, k ∈ keys s → (c ≤ k ↔ d ≤ k))
    : seek keys s c = seek keys s d := by
  unfold seek
  apply List.find?_congr
  intro k hk
  simp only [h k hk]

theorem seek_self {s : σ} {t : Nat} (hsorted : (keys s).Pairwise (· < ·)) (ht : t ∈ keys s)
    : seek keys s t = some t := by
  unfold seek
  rcases List.append_of_mem ht with ⟨pre, post, hkeys⟩
  rw [hkeys] at hsorted
  have hbefore : ∀ k ∈ pre, k < t := by
    intro k hk
    apply (List.pairwise_append.mp hsorted).right.right k hk
    simp
  rw [hkeys]
  rw [List.find?_append]
  rw [List.find?_eq_none.mpr (by intro k hk; simp [hbefore k hk])]
  simp

end Seek

section Sweep

/-!
A loop body that always goes through, even where the loop that runs it has a fault.
-/

variable (keys) (body : Nat → σ → σ)

def sweep : List Nat → σ → σ
  | [], s => s
  | k :: ks, s => if k ∈ keys s then sweep ks (body k s) else sweep ks s

def KeepsKeys : List Nat → σ → Prop
  | [], _ => True
  | k :: ks, s =>
    if k ∈ keys s then k ∈ keys (body k s) ∧ KeepsKeys ks (body k s) else KeepsKeys ks s

structure Conforms (visit : Nat → σ → Option σ) (fresh : σ → Nat) : Prop where
  sorted : ∀ s, (keys s).Pairwise (· < ·)
  lt_fresh : ∀ s k, k ∈ keys s → k < fresh s
  grows : ∀ t s k, k ∈ keys (body t s) → k ∈ keys s ∨ fresh s ≤ k
  fresh_le : ∀ t s, fresh s ≤ fresh (body t s)
  kept : ∀ t s, t ∈ keys s → t ∈ keys (body t s) → visit t s = some (body t s)
  lost : ∀ t s, t ∈ keys s → t ∉ keys (body t s)
    → visit t s = none ∨ ∃ s', visit t s = some s' ∧ t ∉ keys s'

variable {keys} {body} {fresh : σ → Nat}

theorem sweep_invariant {P : σ → Prop} {ks : List Nat} (hP : ∀ k ∈ ks, ∀ s, P s → P (body k s))
    {s : σ} (hs : P s) : P (sweep keys body ks s) := by
  induction ks generalizing s with
  | nil => exact hs
  | cons k ks ih =>
    have hrest : ∀ j ∈ ks, ∀ s, P s → P (body j s) := fun j hj => hP j (List.mem_cons_of_mem k hj)
    simp only [sweep]
    split
    . apply ih hrest (hP k List.mem_cons_self s hs)
    . apply ih hrest hs

theorem sweep_invariant_of_keepsKeys {P : σ → Prop} {ks : List Nat}
    (hP : ∀ k s, k ∈ keys s → k ∈ keys (body k s) → P s → P (body k s)) {s : σ}
    (hkeeps : KeepsKeys keys body ks s) (hs : P s) : P (sweep keys body ks s) := by
  induction ks generalizing s with
  | nil => exact hs
  | cons k ks ih =>
    simp only [KeepsKeys] at hkeeps
    simp only [sweep]
    split at hkeeps
    . next hk =>
      rw [if_pos hk]
      apply ih hkeeps.right (hP k s hk hkeeps.left hs)
    . next hk =>
      rw [if_neg hk]
      apply ih hkeeps hs

theorem sweep_eq_self {s : σ} {ks : List Nat} (h : ∀ k ∈ ks, k ∈ keys s → body k s = s)
    : sweep keys body ks s = s ∧ KeepsKeys keys body ks s := by
  induction ks with
  | nil => simp [sweep, KeepsKeys]
  | cons k ks ih =>
    have htail := ih fun j hj => h j (List.mem_cons_of_mem k hj)
    simp only [sweep, KeepsKeys]
    split
    . next hk =>
      rw [h k List.mem_cons_self hk]
      exact ⟨htail.left, hk, htail.right⟩
    . apply htail

structure Covers (keys : σ → List Nat) (fresh : σ → Nat) (ks : List Nat) (s : σ) (c b : Nat)
    : Prop where
  sorted : ks.Pairwise (· < ·)
  le : ∀ k ∈ ks, c ≤ k
  lt : ∀ k ∈ ks, k < b
  covered : ∀ k ∈ keys s, c ≤ k → k < b → k ∈ ks
  le_fresh : b ≤ fresh s

theorem Covers.skip {k : Nat} {ks : List Nat} {s : σ} {c b : Nat}
    (h : Covers keys fresh (k :: ks) s c b) (hk : k ∉ keys s) : Covers keys fresh ks s c b := by
  constructor
  case sorted => exact h.sorted.of_cons
  case le => exact fun j hj => h.le j (List.mem_cons_of_mem k hj)
  case lt => exact fun j hj => h.lt j (List.mem_cons_of_mem k hj)
  case covered =>
    intro j hj hc hb
    have hmem := h.covered j hj hc hb
    simp only [List.mem_cons] at hmem
    rcases hmem with heq | hmem
    . rw [heq] at hj
      contradiction
    . apply hmem
  case le_fresh => exact h.le_fresh

theorem Covers.next (hloop : Conforms keys body visit fresh) {k : Nat} {ks : List Nat} {s : σ}
    {c b : Nat} (h : Covers keys fresh (k :: ks) s c b)
    : Covers keys fresh ks (body k s) (k + 1) b := by
  have hafter : ∀ j ∈ ks, k < j := (List.pairwise_cons.mp h.sorted).left
  constructor
  case sorted => exact h.sorted.of_cons
  case le =>
    intro j hj
    have := hafter j hj
    omega
  case lt => exact fun j hj => h.lt j (List.mem_cons_of_mem k hj)
  case covered =>
    intro j hj hkj hb
    have hfresh := h.le_fresh
    have hle := h.le k List.mem_cons_self
    rcases hloop.grows k s j hj with hold | hnew
    . have hmem := h.covered j hold (by omega) hb
      simp only [List.mem_cons] at hmem
      rcases hmem with heq | hmem
      . omega
      . apply hmem
    . omega
  case le_fresh =>
    have hfresh := h.le_fresh
    have hmono := hloop.fresh_le k s
    omega

theorem Covers.sweep (hloop : Conforms keys body visit fresh) {ks : List Nat} {s : σ} {c b : Nat}
    (h : Covers keys fresh ks s c b) : Covers keys fresh ks (sweep keys body ks s) c b := by
  -- The second half is there for the induction: keys that are new later are past `fresh s`, too.
  have hgrows : (∀ k ∈ keys (LiveLoop.sweep keys body ks s), k ∈ keys s ∨ fresh s ≤ k)
      ∧ fresh s ≤ fresh (LiveLoop.sweep keys body ks s) := by
    apply sweep_invariant
      (P := fun s' => (∀ k ∈ keys s', k ∈ keys s ∨ fresh s ≤ k) ∧ fresh s ≤ fresh s') _
      ⟨fun k hk => Or.inl hk, Nat.le_refl _⟩
    intro j _ s' ⟨hkeys, hle⟩
    refine ⟨?_, Nat.le_trans hle (hloop.fresh_le j s')⟩
    intro k hk
    rcases hloop.grows j s' k hk with hold | hnew
    . apply hkeys k hold
    . apply Or.inr (Nat.le_trans hle hnew)
  constructor
  case sorted => exact h.sorted
  case le => exact h.le
  case lt => exact h.lt
  case covered =>
    intro k hk hc hb
    have hfresh := h.le_fresh
    rcases hgrows.left k hk with hold | hnew
    . apply h.covered k hold hc hb
    . omega
  case le_fresh => exact Nat.le_trans h.le_fresh hgrows.right

theorem Covers.seek_head (hloop : Conforms keys body visit fresh) {k : Nat} {ks : List Nat} {s : σ}
    {c b : Nat} (h : Covers keys fresh (k :: ks) s c b) (hk : k ∈ keys s)
    : seek keys s c = some k := by
  rw [← seek_self (hloop.sorted s) hk]
  apply seek_congr
  intro j hj
  have hle := h.le k List.mem_cons_self
  have hlt := h.lt k List.mem_cons_self
  constructor
  . intro hc
    rcases Nat.lt_or_ge j b with hb | hb
    . have hmem := h.covered j hj hc hb
      simp only [List.mem_cons] at hmem
      rcases hmem with heq | hmem
      . omega
      . have := (List.pairwise_cons.mp h.sorted).left j hmem
        omega
    . omega
  . intro hkj
    omega

theorem Covers.seek_nil {s : σ} {c b : Nat} (h : Covers keys fresh [] s c b) (hcb : c ≤ b)
    : seek keys s c = seek keys s b := by
  apply seek_congr
  intro k hk
  constructor
  . intro hc
    rcases Nat.lt_or_ge k b with hb | hb
    . cases h.covered k hk hc hb
    . apply hb
  . intro hb
    omega

/--
As long as each visit keeps its own key the loop does what the sweep over the old keys does, and
then goes on with the keys that are new.
-/
theorem ends_iff_of_keepsKeys (hloop : Conforms keys body visit fresh) {ks : List Nat} {s : σ}
    {c b : Nat} (hcb : c ≤ b) (hcovers : Covers keys fresh ks s c b) (hkeeps : KeepsKeys keys body ks s)
    (out : Option σ)
    : Ends keys visit (seek keys s c) s out
      ↔ Ends keys visit (seek keys (sweep keys body ks s) b) (sweep keys body ks s) out := by
  induction ks generalizing s c with
  | nil =>
    simp only [sweep]
    rw [hcovers.seek_nil hcb]
  | cons k ks ih =>
    simp only [sweep]
    simp only [KeepsKeys] at hkeeps
    split at hkeeps
    . next hk =>
      rw [if_pos hk]
      -- The iterator stands on `k`, and `k` is still there when it moves on.
      rw [hcovers.seek_head hloop hk]
      have hlt := hcovers.lt k List.mem_cons_self
      have hvisit := hloop.kept k s hk hkeeps.left
      rw [← ih (by omega) (hcovers.next hloop) hkeeps.right]
      constructor
      . intro h
        cases h with
        | fault hnone =>
          rw [hvisit] at hnone
          cases hnone
        | lost hsome hgone =>
          rw [hvisit] at hsome
          cases hsome
          exact absurd hkeeps.left hgone
        | step hsome _ hrest =>
          rw [hvisit] at hsome
          cases hsome
          apply hrest
      . apply Ends.step hvisit hkeeps.left
    . next hk =>
      rw [if_neg hk]
      apply ih hcb (hcovers.skip hk) hkeeps

theorem ends_fault_of_not_keepsKeys (hloop : Conforms keys body visit fresh) {ks : List Nat} {s : σ}
    {c b : Nat} (hcb : c ≤ b) (hcovers : Covers keys fresh ks s c b)
    (hloses : ¬ KeepsKeys keys body ks s) : Ends keys visit (seek keys s c) s none := by
  induction ks generalizing s c with
  | nil => simp [KeepsKeys] at hloses
  | cons k ks ih =>
    simp only [KeepsKeys] at hloses
    split at hloses
    . next hk =>
      rw [hcovers.seek_head hloop hk]
      by_cases hkept : k ∈ keys (body k s)
      . have hlt := hcovers.lt k List.mem_cons_self
        apply Ends.step (hloop.kept k s hk hkept) hkept
        apply ih (by omega) (hcovers.next hloop)
        intro hrest
        apply hloses ⟨hkept, hrest⟩
      . rcases hloop.lost k s hk hkept with hnone | ⟨s', hsome, hgone⟩
        . apply Ends.fault hnone
        . apply Ends.lost hsome hgone
    . next hk => exact ih hcb (hcovers.skip hk) hloses

theorem covers_between (hloop : Conforms keys body visit fresh) (s : σ) (c : Nat) {b : Nat}
    (hb : b ≤ fresh s)
    : Covers keys fresh ((keys s).filter fun k => c ≤ k ∧ k < b) s c b := by
  constructor
  case sorted => exact (hloop.sorted s).filter _
  case le => simp +contextual
  case lt => simp +contextual
  case covered => simp +contextual
  case le_fresh => exact hb

theorem ends_iff_of_idle (hloop : Conforms keys body visit fresh) {s : σ} {c b : Nat} (hcb : c ≤ b)
    (hb : b ≤ fresh s) (hidle : ∀ k ∈ keys s, c ≤ k → k < b → body k s = s) (out : Option σ)
    : Ends keys visit (seek keys s c) s out ↔ Ends keys visit (seek keys s b) s out := by
  have hself : ∀ k ∈ (keys s).filter (fun k => c ≤ k ∧ k < b), k ∈ keys s → body k s = s := by
    intro k hk hmem
    simp only [List.mem_filter, decide_eq_true_eq] at hk
    apply hidle k hmem hk.right.left hk.right.right
  rcases sweep_eq_self hself with ⟨hsweep, hkeeps⟩
  rw [ends_iff_of_keepsKeys hloop hcb (covers_between hloop s c hb) hkeeps out]
  rw [hsweep]

theorem ends_of_all_idle (hloop : Conforms keys body visit fresh) {s : σ} {c : Nat}
    (hc : c ≤ fresh s) (hidle : ∀ k ∈ keys s, c ≤ k → body k s = s)
    : Ends keys visit (seek keys s c) s (some s) := by
  rw [ends_iff_of_idle hloop hc (Nat.le_refl _) fun k hk hck _ => hidle k hk hck]
  rw [seek_eq_none_iff.mpr (hloop.lt_fresh s)]
  apply Ends.done

theorem exists_visit_of_not_idle (hloop : Conforms keys body visit fresh) {s : σ} {c : Nat}
    (hactive : ∃ k ∈ keys s, c ≤ k ∧ body k s ≠ s) {s' : σ}
    (h : Ends keys visit (seek keys s c) s (some s'))
    : ∃ k ∈ keys s, c ≤ k ∧ body k s ≠ s ∧ k ∈ keys (body k s)
      ∧ Ends keys visit (seek keys (body k s) (k + 1)) (body k s) (some s') := by
  classical
  -- Before the first such key there is nothing but keys that may be passed over.
  have hfirst := Nat.find_spec hactive
  have hmin := fun j (hj : j < Nat.find hactive) => Nat.find_min hactive hj
  generalize Nat.find hactive = k at hfirst hmin
  rcases hfirst with ⟨hk, hck, hchanges⟩
  have hidle : ∀ j ∈ keys s, c ≤ j → j < k → body j s = s := by
    intro j hj hcj hlt
    by_contra hne
    apply hmin j hlt ⟨hj, hcj, hne⟩
  have hfresh := hloop.lt_fresh s k hk
  rw [ends_iff_of_idle hloop hck (by omega) hidle] at h
  rw [seek_self (hloop.sorted s) hk] at h
  refine ⟨k, hk, hck, hchanges, ?_⟩
  by_cases hkept : k ∈ keys (body k s)
  . have hvisit := hloop.kept k s hk hkept
    cases h with
    | step hsome _ hrest =>
      rw [hvisit] at hsome
      cases hsome
      exact ⟨hkept, hrest⟩
  . cases h with
    | step hsome hmem hrest =>
      rcases hloop.lost k s hk hkept with hnone | ⟨s'', hsome', hgone⟩
      . rw [hnone] at hsome
        cases hsome
      . rw [hsome'] at hsome
        cases hsome
        exact absurd hmem hgone

end Sweep

end LiveLoop
