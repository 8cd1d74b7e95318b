import Mathlib.Data.List.Nodup

/-!
Registries that hand out a token for each subscription and keep a hook in the system they listen to.
A registry that obeys the laws is in step with the system along every run of calls, whatever the
tokens that are given to it.
-/

namespace Subscriptions

structure Model (ε : Type u) (ρ : Type v) (α : Type w) (σ : Type x) (β : Type y) where
  subscribe : α → ρ → Except ε Nat × ρ
  unsubscribe : Nat → ρ → Except ε Unit × ρ
  subscription : α → σ
  find : ρ → Nat → Option σ
  installed : ρ → Bool
  core : ρ → β

inductive Call (α : Type w) where
  | subscribe (call : α)
  | unsubscribe (token : Nat)

structure History (ρ : Type v) where
  registry : ρ
  returned : List Nat := []

variable {ε : Type u} {ρ : Type v} {α : Type w} {σ : Type x} {β : Type y} (m : Model ε ρ α σ β)

def step (h : History ρ) : Call α → History ρ
  | .subscribe call =>
    match m.subscribe call h.registry with
    | (.ok token, r) => { registry := r, returned := h.returned ++ [token] }
    | (.error _, r) => { h with registry := r }
  | .unsubscribe token => { h with registry := (m.unsubscribe token h.registry).2 }

def run (r : ρ) (calls : List (Call α)) : History ρ :=
  calls.foldl (step m) { registry := r }

structure Laws (valid : ρ → Prop) (next : ρ → Nat) : Prop where
  valid_subscribe : ∀ a r, valid r → valid (m.subscribe a r).2
  valid_unsubscribe : ∀ t r, valid r → valid (m.unsubscribe t r).2
  lt_next : ∀ r t, valid r → (m.find r t).isSome → t < next r
  installed_iff : ∀ r, valid r → (m.installed r = true ↔ ∃ t, (m.find r t).isSome)
  subscribe_ok : ∀ a r t, valid r → (m.subscribe a r).1 = .ok t →
    t = next r ∧ next (m.subscribe a r).2 = next r + 1
      ∧ ∀ t', m.find (m.subscribe a r).2 t'
        = if t' = t then some (m.subscription a) else m.find r t'
  subscribe_error : ∀ a r e, valid r → (m.subscribe a r).1 = .error e →
    next (m.subscribe a r).2 = next r ∧ m.core (m.subscribe a r).2 = m.core r
  unsubscribe_some : ∀ t r, valid r → (m.find r t).isSome →
    (m.unsubscribe t r).1 = .ok ()
      ∧ next (m.unsubscribe t r).2 = next r
      ∧ ∀ t', m.find (m.unsubscribe t r).2 t' = if t' = t then none else m.find r t'
  unsubscribe_none : ∀ t r, valid r → m.find r t = none →
    (∃ e, (m.unsubscribe t r).1 = .error e)
      ∧ next (m.unsubscribe t r).2 = next r
      ∧ m.core (m.unsubscribe t r).2 = m.core r

structure InStep (h : History ρ) : Prop where
  installed_iff : m.installed h.registry = true ↔ ∃ t, (m.find h.registry t).isSome
  returned_nodup : h.returned.Nodup
  subscribe_fresh : ∀ a t, (m.subscribe a h.registry).1 = .ok t → t ∉ h.returned
  subscribe_adds : ∀ a t, (m.subscribe a h.registry).1 = .ok t → ∀ t',
    m.find (m.subscribe a h.registry).2 t'
      = if t' = t then some (m.subscription a) else m.find h.registry t'
  subscribe_fails : ∀ a e, (m.subscribe a h.registry).1 = .error e →
    m.core (m.subscribe a h.registry).2 = m.core h.registry
  unsubscribe_ok_iff : ∀ t, (m.unsubscribe t h.registry).1 = .ok ()
    ↔ (m.find h.registry t).isSome
  unsubscribe_removes : ∀ t, (m.unsubscribe t h.registry).1 = .ok () → ∀ t',
    m.find (m.unsubscribe t h.registry).2 t' = if t' = t then none else m.find h.registry t'
  unsubscribe_fails : ∀ t e, (m.unsubscribe t h.registry).1 = .error e →
    m.core (m.unsubscribe t h.registry).2 = m.core h.registry

section Run

variable {m} {valid : ρ → Prop} {next : ρ → Nat}

structure Kept (valid : ρ → Prop) (next : ρ → Nat) (h : History ρ) : Prop where
  valid : valid h.registry
  lt_next : ∀ t ∈ h.returned, t < next h.registry
  nodup : h.returned.Nodup

theorem kept_step (hlaws : Laws m valid next) {h : History ρ} (hkept : Kept valid next h)
    (call : Call α) : Kept valid next (step m h call) := by
  cases call with
  | subscribe a =>
    have hvalid := hlaws.valid_subscribe a h.registry hkept.valid
    simp only [step]
    cases hresult : m.subscribe a h.registry with
    | mk result r =>
      rw [hresult] at hvalid
      cases result with
      | error e =>
        have hnext := (hlaws.subscribe_error a h.registry e hkept.valid (by rw [hresult])).left
        rw [hresult] at hnext
        refine ⟨hvalid, ?_, hkept.nodup⟩
        intro t ht
        rw [hnext]
        apply hkept.lt_next t ht
      | ok token =>
        rcases hlaws.subscribe_ok a h.registry token hkept.valid (by rw [hresult])
          with ⟨htoken, hnext, _⟩
        rw [hresult] at hnext
        refine ⟨hvalid, ?_, ?_⟩
        . intro t ht
          simp only at hnext ⊢
          rcases List.mem_append.mp ht with hold | hnew
          . have := hkept.lt_next t hold
            omega
          . have := List.mem_singleton.mp hnew
            omega
        . apply List.nodup_append.mpr
          refine ⟨hkept.nodup, List.nodup_singleton token, ?_⟩
          intro t ht t' ht'
          have := hkept.lt_next t ht
          have := List.mem_singleton.mp ht'
          omega
  | unsubscribe token =>
    have hvalid := hlaws.valid_unsubscribe token h.registry hkept.valid
    have hnext : next (m.unsubscribe token h.registry).2 = next h.registry := by
      cases hfind : m.find h.registry token with
      | none => apply (hlaws.unsubscribe_none token h.registry hkept.valid hfind).right.left
      | some sub =>
        apply (hlaws.unsubscribe_some token h.registry hkept.valid (by simp [hfind])).right.left
    refine ⟨hvalid, ?_, hkept.nodup⟩
    intro t ht
    simp only [step, hnext]
    apply hkept.lt_next t ht

theorem kept_run (hlaws : Laws m valid next) {r : ρ} (hvalid : valid r) (calls : List (Call α))
    : Kept valid next (run m r calls) := by
  have hfold : ∀ h : History ρ, Kept valid next h → Kept valid next (calls.foldl (step m) h) := by
    induction calls with
    | nil => exact fun _ h => h
    | cons call calls ih => exact fun h hkept => ih (step m h call) (kept_step hlaws hkept call)
  apply hfold
  exact ⟨hvalid, by simp, by simp⟩

theorem Kept.inStep (hlaws : Laws m valid next) {h : History ρ} (hkept : Kept valid next h)
    : InStep m h := by
  have hunsubscribe : ∀ t, (m.unsubscribe t h.registry).1 = .ok ()
      ↔ (m.find h.registry t).isSome := by
    intro t
    cases hfind : m.find h.registry t with
    | none =>
      rcases (hlaws.unsubscribe_none t h.registry hkept.valid hfind).left with ⟨e, herror⟩
      simp [herror]
    | some sub =>
      simp [(hlaws.unsubscribe_some t h.registry hkept.valid (by simp [hfind])).left]
  constructor
  case installed_iff => apply hlaws.installed_iff h.registry hkept.valid
  case returned_nodup => apply hkept.nodup
  case subscribe_fresh =>
    intro a t hok hmem
    have htoken := (hlaws.subscribe_ok a h.registry t hkept.valid hok).left
    have := hkept.lt_next t hmem
    omega
  case subscribe_adds =>
    intro a t hok
    apply (hlaws.subscribe_ok a h.registry t hkept.valid hok).right.right
  case subscribe_fails =>
    intro a e herror
    apply (hlaws.subscribe_error a h.registry e hkept.valid herror).right
  case unsubscribe_ok_iff => apply hunsubscribe
  case unsubscribe_removes =>
    intro t hok
    apply (hlaws.unsubscribe_some t h.registry hkept.valid ((hunsubscribe t).mp hok)).right.right
  case unsubscribe_fails =>
    intro t e herror
    have hfind : m.find h.registry t = none := by
      rw [Option.eq_none_iff_forall_ne_some]
      intro sub hsome
      have := (hunsubscribe t).mpr (by simp [hsome])
      rw [herror] at this
      cases this
    apply (hlaws.unsubscribe_none t h.registry hkept.valid hfind).right.right

end Run

section Spent

def Spent (next : ρ → Nat) (r : ρ) (t : Nat) : Prop :=
  t < next r ∧ m.find r t = none

variable {m} {valid : ρ → Prop} {next : ρ → Nat}

theorem spent_step (hlaws : Laws m valid next)
    (hcore : ∀ r r', m.core r' = m.core r → m.find r' = m.find r) {h : History ρ}
    (hvalid : valid h.registry) (call : Call α) {t : Nat} (hspent : Spent m next h.registry t)
    : Spent m next (step m h call).registry t := by
  rcases hspent with ⟨hlt, hnone⟩
  unfold Spent
  cases call with
  | subscribe a =>
    simp only [step]
    cases hresult : m.subscribe a h.registry with
    | mk result r =>
      cases result with
      | error e =>
        rcases hlaws.subscribe_error a h.registry e hvalid (by rw [hresult]) with ⟨hnext, hsame⟩
        rw [hresult] at hnext hsame
        simp only at hnext hsame ⊢
        rw [hnext, hcore _ _ hsame]
        exact ⟨hlt, hnone⟩
      | ok token =>
        rcases hlaws.subscribe_ok a h.registry token hvalid (by rw [hresult])
          with ⟨htoken, hnext, hfind⟩
        rw [hresult] at hnext hfind
        simp only at hnext hfind ⊢
        rw [hnext, hfind, if_neg (by omega)]
        exact ⟨Nat.lt_succ_of_lt hlt, hnone⟩
  | unsubscribe token =>
    simp only [step]
    cases hfind : m.find h.registry token with
    | none =>
      rcases hlaws.unsubscribe_none token h.registry hvalid hfind with ⟨_, hnext, hsame⟩
      rw [hnext, hcore _ _ hsame]
      exact ⟨hlt, hnone⟩
    | some sub =>
      rcases hlaws.unsubscribe_some token h.registry hvalid (by simp [hfind])
        with ⟨_, hnext, hfind'⟩
      rw [hnext, hfind']
      refine ⟨hlt, ?_⟩
      split
      . rfl
      . apply hnone

theorem spent_unsubscribe (hlaws : Laws m valid next) {r : ρ} (hvalid : valid r) {t : Nat}
    (hok : (m.unsubscribe t r).1 = .ok ()) : Spent m next (m.unsubscribe t r).2 t := by
  cases hfind : m.find r t with
  | none =>
    rcases (hlaws.unsubscribe_none t r hvalid hfind).left with ⟨e, herror⟩
    rw [herror] at hok
    cases hok
  | some sub =>
    have hsome : (m.find r t).isSome := by simp [hfind]
    rcases hlaws.unsubscribe_some t r hvalid hsome with ⟨_, hnext, hfind'⟩
    unfold Spent
    rw [hnext, hfind', if_pos rfl]
    exact ⟨hlaws.lt_next r t hvalid hsome, rfl⟩

end Spent

end Subscriptions
