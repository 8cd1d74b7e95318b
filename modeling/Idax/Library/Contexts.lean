import Idax.Library.OrderedMap
import Idax.Library.Ownership
import Idax.Library.Snapshot

/-!
Handlers that have a block of memory each, of which the registry they are subscribed to knows the
address only. The block is given back when the handler is unsubscribed, whatever the dispatches still
have to call. No handler works on a block that is gone exactly when none is unsubscribed that waits in
a dispatch or runs there.
-/

namespace Contexts

open Ownership

variable {E ρ α σ γ ν ε β κ : Type}

/--
`request` is the call on the registry for a handler with a block, and `stops` says for which result of
a handler a dispatcher leaves out the rest.
-/
structure Model (E ρ α σ γ ν ε β κ : Type) where
  registry : Subscriptions.Model E ρ α σ γ
  request : κ → Nat → α
  matched : ν → ρ → List ε
  token : ε → Nat
  context : ε → Nat
  stops : ν → β → Bool

structure Session (ρ ν ε : Type) where
  registry : ρ
  dispatches : List (Snapshot.Dispatch ν ε) := []
  saved : OrderedMap Nat Nat := .empty

inductive Action (κ ν β : Type) where
  | subscribe (request : κ)
  | unsubscribe (token : Nat)
  | notify (notification : ν)
  | next (i : Nat) (result : β)

variable (m : Model E ρ α σ γ ν ε β κ)

section Calls

def subscribe (request : κ) (s : Session ρ ν ε) : Mem (Session ρ ν ε) := do
  let raw ← box
  match m.registry.subscribe (m.request request raw) s.registry with
  | (.error _, registry) =>
    free (some raw)
    return { s with registry }
  | (.ok token, registry) => return { s with registry, saved := s.saved.insert token raw }

def unsubscribe (token : Nat) (s : Session ρ ν ε) : Mem (Session ρ ν ε) :=
  match m.registry.unsubscribe token s.registry with
  | (.error _, registry) => return { s with registry }
  | (.ok _, registry) =>
    match s.saved.find? token with
    | none => return { s with registry }
    | some raw => do
      free (some raw)
      return { s with registry, saved := s.saved.erase token }

def finish : Option ε → Mem Unit
  | none => return ()
  | some e => touch (m.context e)

/--
`next` ends the running handler of a dispatch, if there is one, and goes on with the next one. A
handler is on its block from its start to its end.
-/
def next (i : Nat) (result : β) (s : Session ρ ν ε) : Mem (Session ρ ν ε) :=
  match s.dispatches[i]? with
  | none => return s
  | some d => do
    finish m d.running
    if d.running.isSome && m.stops d.notification result then
      return { s with dispatches := s.dispatches.eraseIdx i }
    else
      match d.waiting with
      | [] => return { s with dispatches := s.dispatches.eraseIdx i }
      | e :: rest =>
        touch (m.context e)
        return { s with dispatches := s.dispatches.set i { d with running := some e, waiting := rest } }

def perform : Action κ ν β → Session ρ ν ε → Mem (Session ρ ν ε)
  | .subscribe request, s => subscribe m request s
  | .unsubscribe token, s => unsubscribe m token s
  | .notify n, s => return { s with
      dispatches := s.dispatches ++ [{ notification := n, waiting := m.matched n s.registry }]
    }
  | .next i result, s => next m i result s

def step (world : Option (Session ρ ν ε × Heap)) (action : Action κ ν β)
    : Option (Session ρ ν ε × Heap) :=
  world.bind fun w => perform m action w.1 w.2

end Calls

section Properties

def busy (d : Snapshot.Dispatch ν ε) : List ε :=
  d.running.toList ++ d.waiting

def Safe (world : Option (Session ρ ν ε × Heap)) : Prop :=
  ∀ turns : List (Nat × β),
    Machine.run (step m) world (turns.map fun turn => .next turn.1 turn.2) ≠ none

def KeepsBusy : Option (Session ρ ν ε × Heap) → Action κ ν β → Prop
  | some (s, _), .unsubscribe token =>
    (m.registry.unsubscribe token s.registry).1 = .ok () →
      ∀ d ∈ s.dispatches, ∀ e ∈ busy d, m.token e ≠ token
  | _, _ => True

structure Accounted (owner : σ → Option Nat) (s : Session ρ ν ε) (h : Heap) : Prop where
  live_iff : ∀ p, p ∈ h.live ↔ ∃ t, (m.registry.find s.registry t).bind owner = some p
  nodup : h.live.Nodup
  unique : ∀ t t' p, (m.registry.find s.registry t).bind owner = some p →
    (m.registry.find s.registry t').bind owner = some p → t = t'

structure Laws (owner : σ → Option Nat) (valid : ρ → Prop) (next : ρ → Nat) : Prop where
  registry : Subscriptions.Laws m.registry valid next
  core : ∀ r r', m.registry.core r' = m.registry.core r → m.registry.find r' = m.registry.find r
  owner_request : ∀ k p, owner (m.registry.subscription (m.request k p)) = some p
  matched : ∀ n r, valid r → ∀ e ∈ m.matched n r,
    (m.registry.find r (m.token e)).bind owner = some (m.context e)
  stops : ∀ n, ∃ result, m.stops n result = false

end Properties

section Outcomes

variable {m} {s s' : Session ρ ν ε} {h h' : Heap}

theorem subscribe_cases (k : κ) (s : Session ρ ν ε) (h : Heap)
    : (∃ e r, m.registry.subscribe (m.request k h.requests) s.registry = (.error e, r)
        ∧ subscribe m k s h = some ({ s with registry := r }, { h with requests := h.requests + 1 }))
      ∨ ∃ t r, m.registry.subscribe (m.request k h.requests) s.registry = (.ok t, r)
        ∧ subscribe m k s h = some ({ s with registry := r, saved := s.saved.insert t h.requests },
          { live := h.requests ::ₘ h.live, requests := h.requests + 1 }) := by
  cases hsub : m.registry.subscribe (m.request k h.requests) s.registry with
  | mk result r =>
    cases result with
    | error e =>
      refine .inl ⟨e, r, rfl, ?_⟩
      simp only [subscribe, box, bind, StateT.bind, hsub, Option.bind_some, free]
      rw [if_pos (Multiset.mem_cons_self _ _), Multiset.erase_cons_head]
      rfl
    | ok t =>
      refine .inr ⟨t, r, rfl, ?_⟩
      simp only [subscribe, box, bind, StateT.bind, hsub, Option.bind_some]
      rfl

theorem unsubscribe_cases (t : Nat) (hlive : ∀ raw, s.saved.find? t = some raw → raw ∈ h.live)
    : (∃ e r, m.registry.unsubscribe t s.registry = (.error e, r)
        ∧ unsubscribe m t s h = some ({ s with registry := r }, h))
      ∨ (∃ r, m.registry.unsubscribe t s.registry = (.ok (), r) ∧ s.saved.find? t = none
        ∧ unsubscribe m t s h = some ({ s with registry := r }, h))
      ∨ ∃ r raw, m.registry.unsubscribe t s.registry = (.ok (), r) ∧ s.saved.find? t = some raw
        ∧ unsubscribe m t s h = some ({ s with registry := r, saved := s.saved.erase t },
          { h with live := h.live.erase raw }) := by
  unfold unsubscribe
  cases hunsub : m.registry.unsubscribe t s.registry with
  | mk result r =>
    cases result with
    | error e => exact .inl ⟨e, r, rfl, rfl⟩
    | ok u =>
      cases hsaved : s.saved.find? t with
      | none => exact .inr (.inl ⟨r, rfl, rfl, rfl⟩)
      | some raw =>
        refine .inr (.inr ⟨r, raw, rfl, rfl, ?_⟩)
        simp only [free, bind, StateT.bind, if_pos (hlive raw hsaved), Option.bind_some]
        rfl

theorem finish_apply (running : Option ε) (h : Heap)
    : finish m running h = if ∀ e, running = some e → m.context e ∈ h.live then some ((), h) else none := by
  cases running with
  | none =>
    rw [if_pos (fun e he => by cases he)]
    rfl
  | some e => simp [finish, touch]

theorem next_apply {i : Nat} {d : Snapshot.Dispatch ν ε} (hget : s.dispatches[i]? = some d) (result : β)
    (hrunning : ∀ e, d.running = some e → m.context e ∈ h.live)
    : next m i result s h =
        if d.running.isSome && m.stops d.notification result then
          some ({ s with dispatches := s.dispatches.eraseIdx i }, h)
        else
          match d.waiting with
          | [] => some ({ s with dispatches := s.dispatches.eraseIdx i }, h)
          | e :: rest =>
            if m.context e ∈ h.live then
              some ({ s with
                dispatches := s.dispatches.set i { d with running := some e, waiting := rest } }, h)
            else
              none := by
  unfold next
  rw [hget]
  simp only [bind, StateT.bind, finish_apply]
  rw [if_pos hrunning]
  dsimp only [Option.bind_some]
  split
  . rfl
  . cases d.waiting with
    | nil => rfl
    | cons e rest =>
      simp only [StateT.bind, touch]
      by_cases hlive : m.context e ∈ h.live
      . rw [if_pos hlive, if_pos hlive]
        rfl
      . rw [if_neg hlive, if_neg hlive]
        rfl

theorem next_fault {i : Nat} {d : Snapshot.Dispatch ν ε} (hget : s.dispatches[i]? = some d) (result : β)
    (hrunning : ¬ ∀ e, d.running = some e → m.context e ∈ h.live) : next m i result s h = none := by
  unfold next
  rw [hget]
  simp only [bind, StateT.bind, finish_apply]
  rw [if_neg hrunning]
  rfl

theorem next_cases (i : Nat) (result : β) (s : Session ρ ν ε) (h : Heap)
    : (next m i result s h = none ∧ ∃ d ∈ s.dispatches, ∃ e ∈ busy d, m.context e ∉ h.live)
      ∨ ∃ dispatches, next m i result s h = some ({ s with dispatches := dispatches }, h)
        ∧ ∀ d' ∈ dispatches, ∀ e ∈ busy d', ∃ d ∈ s.dispatches, e ∈ busy d := by
  cases hget : s.dispatches[i]? with
  | none =>
    refine .inr ⟨s.dispatches, ?_, fun d hd e he => ⟨d, hd, he⟩⟩
    unfold next
    rw [hget]
    rfl
  | some d =>
    have hd : d ∈ s.dispatches := List.mem_of_getElem? hget
    have herased : ∀ d' ∈ s.dispatches.eraseIdx i, ∀ e ∈ busy d', ∃ d ∈ s.dispatches, e ∈ busy d :=
      fun d' hd' e he => ⟨d', List.mem_of_mem_eraseIdx hd', he⟩
    by_cases hrunning : ∀ e, d.running = some e → m.context e ∈ h.live
    . rw [next_apply hget result hrunning]
      split
      . exact .inr ⟨_, rfl, herased⟩
      . split
        . exact .inr ⟨_, rfl, herased⟩
        . next e rest hwaiting =>
          split
          . refine .inr ⟨_, rfl, ?_⟩
            intro d' hd' e' he'
            rcases List.mem_or_eq_of_mem_set hd' with hold | rfl
            . exact ⟨d', hold, he'⟩
            . refine ⟨d, hd, ?_⟩
              apply List.mem_append_right
              rw [hwaiting]
              exact he'
          . next hgone =>
            refine .inl ⟨rfl, d, hd, e, ?_, hgone⟩
            apply List.mem_append_right
            rw [hwaiting]
            exact List.mem_cons_self
    . refine .inl ⟨next_fault hget result hrunning, d, hd, ?_⟩
      simp only [not_forall] at hrunning
      rcases hrunning with ⟨e, hsome, hgone⟩
      refine ⟨e, ?_, hgone⟩
      apply List.mem_append_left
      rw [hsome]
      exact List.mem_cons_self

end Outcomes

section Turns

def Unharmed (s : Session ρ ν ε) (h : Heap) : Prop :=
  ∀ d ∈ s.dispatches, ∀ e ∈ busy d, m.context e ∈ h.live

variable {m} {s : Session ρ ν ε} {h : Heap}

theorem safe_of_unharmed (hlive : Unharmed m s h) : Safe m (some (s, h)) := by
  intro turns
  induction turns generalizing s with
  | nil => simp [Machine.run]
  | cons turn turns ih =>
    show Machine.run (step m) (next m turn.1 turn.2 s h) _ ≠ none
    rcases next_cases (m := m) turn.1 turn.2 s h with ⟨_, d, hd, e, he, hgone⟩ | ⟨dispatches, hnext, hsub⟩
    . exact absurd (hlive d hd e he) hgone
    . rw [hnext]
      apply ih
      intro d' hd' e he
      rcases hsub d' hd' e he with ⟨d, hd, he⟩
      exact hlive d hd e he

theorem live_of_running (hsafe : Safe m (some (s, h))) {i : Nat} {d : Snapshot.Dispatch ν ε}
    (hget : s.dispatches[i]? = some d) (result : β) : ∀ e, d.running = some e → m.context e ∈ h.live := by
  by_contra hgone
  apply hsafe [(i, result)]
  exact next_fault hget result hgone

theorem live_of_waiting (hsafe : Safe m (some (s, h))) {i : Nat} {d : Snapshot.Dispatch ν ε}
    (hget : s.dispatches[i]? = some d) {result : β} (hstops : m.stops d.notification result = false)
    (front : List ε) {e : ε} {back : List ε} (hwaiting : d.waiting = front ++ e :: back)
    : m.context e ∈ h.live := by
  induction front generalizing s d with
  | nil =>
    by_contra hgone
    apply hsafe [(i, result)]
    show next m i result s h = none
    rw [next_apply hget result (live_of_running hsafe hget result), hstops, hwaiting, Bool.and_false]
    exact if_neg hgone
  | cons e' front ih =>
    have hnext := next_apply hget result (live_of_running hsafe hget result)
    rw [hstops, hwaiting, Bool.and_false, if_neg (by decide)] at hnext
    dsimp only [List.cons_append] at hnext
    have hlt : i < s.dispatches.length := (List.getElem?_eq_some_iff.mp hget).choose
    by_cases hlive : m.context e' ∈ h.live
    . rw [if_pos hlive] at hnext
      have hsafe' : Safe m (some ({ s with
          dispatches := s.dispatches.set i
            { d with running := some e', waiting := front ++ e :: back } }, h)) := by
        intro turns
        have hrun := hsafe ((i, result) :: turns)
        simp only [List.map_cons, Machine.run, step, Option.bind_some, perform, hnext] at hrun
        exact hrun
      apply ih hsafe' (d := { d with running := some e', waiting := front ++ e :: back })
      . simp [hlt]
      . exact hstops
      . rfl
    . rw [if_neg hlive] at hnext
      exact absurd hnext (hsafe [(i, result)])

theorem safe_iff (hstops : ∀ n, ∃ result, m.stops n result = false)
    : Safe m (some (s, h)) ↔ Unharmed m s h := by
  constructor
  . intro hsafe d hd e he
    rcases List.mem_iff_getElem?.mp hd with ⟨i, hget⟩
    rcases hstops d.notification with ⟨result, hresult⟩
    rcases List.mem_append.mp he with hrunning | hwaiting
    . exact live_of_running hsafe hget result e (Option.mem_toList.mp hrunning)
    . rcases List.append_of_mem hwaiting with ⟨front, back, heq⟩
      exact live_of_waiting hsafe hget hresult front heq
  . exact safe_of_unharmed

end Turns

section Owned

structure Owned (saved : OrderedMap Nat Nat) (h : Heap) : Prop where
  live_iff : ∀ p, p ∈ h.live ↔ ∃ t, saved.find? t = some p
  nodup : h.live.Nodup
  unique : ∀ t t' p, saved.find? t = some p → saved.find? t' = some p → t = t'
  fresh : ∀ p ∈ h.live, p < h.requests

variable {saved : OrderedMap Nat Nat} {h : Heap}

theorem owned_empty : Owned .empty {} := by
  constructor <;> simp

theorem Owned.request (howned : Owned saved h) : Owned saved { h with requests := h.requests + 1 } where
  live_iff := howned.live_iff
  nodup := howned.nodup
  unique := howned.unique
  fresh := fun p hp => Nat.lt_succ_of_lt (howned.fresh p hp)

theorem Owned.insert (howned : Owned saved h) {t : Nat} (hnone : saved.find? t = none)
    : Owned (saved.insert t h.requests)
        { live := h.requests ::ₘ h.live, requests := h.requests + 1 } := by
  have hnew : h.requests ∉ h.live := fun hmem => Nat.lt_irrefl _ (howned.fresh _ hmem)
  constructor
  case live_iff =>
    intro p
    simp only [Multiset.mem_cons, OrderedMap.find?_insert, howned.live_iff]
    constructor
    . rintro (rfl | ⟨t', hold⟩)
      . exact ⟨t, if_pos rfl⟩
      . refine ⟨t', ?_⟩
        rw [if_neg, hold]
        rintro rfl
        rw [hnone] at hold
        cases hold
    . rintro ⟨t', hfind⟩
      split at hfind
      . exact .inl (Option.some.inj hfind).symm
      . exact .inr ⟨t', hfind⟩
  case nodup => exact Multiset.nodup_cons.mpr ⟨hnew, howned.nodup⟩
  case unique =>
    intro t₁ t₂ p h₁ h₂
    rw [OrderedMap.find?_insert] at h₁ h₂
    have hold : ∀ t', saved.find? t' = some h.requests → False :=
      fun t' hfind => hnew ((howned.live_iff _).mpr ⟨t', hfind⟩)
    split at h₁
    . next heq₁ =>
      split at h₂
      . next heq₂ => rw [heq₁, heq₂]
      . rw [← Option.some.inj h₁] at h₂
        exact (hold t₂ h₂).elim
    . split at h₂
      . rw [← Option.some.inj h₂] at h₁
        exact (hold t₁ h₁).elim
      . exact howned.unique t₁ t₂ p h₁ h₂
  case fresh =>
    intro p hp
    rcases Multiset.mem_cons.mp hp with rfl | hold
    . exact Nat.lt_succ_self _
    . exact Nat.lt_succ_of_lt (howned.fresh p hold)

theorem Owned.erase (howned : Owned saved h) {t raw : Nat} (hraw : saved.find? t = some raw)
    : Owned (saved.erase t) { h with live := h.live.erase raw } := by
  constructor
  case live_iff =>
    intro p
    simp only [howned.nodup.mem_erase_iff, OrderedMap.find?_erase, howned.live_iff]
    constructor
    . rintro ⟨hne, t', hfind⟩
      refine ⟨t', ?_⟩
      rw [if_neg, hfind]
      rintro rfl
      rw [hraw] at hfind
      exact hne (Option.some.inj hfind).symm
    . rintro ⟨t', hfind⟩
      split at hfind
      . cases hfind
      . next hne =>
        refine ⟨?_, t', hfind⟩
        rintro rfl
        exact hne (howned.unique t' t p hfind hraw)
  case nodup => exact howned.nodup.erase raw
  case unique =>
    intro t₁ t₂ p h₁ h₂
    rw [OrderedMap.find?_erase] at h₁ h₂
    split at h₁
    . cases h₁
    . split at h₂
      . cases h₂
      . exact howned.unique t₁ t₂ p h₁ h₂
  case fresh => exact fun p hp => howned.fresh p (Multiset.mem_of_mem_erase hp)

end Owned

section Run

structure Kept (owner : σ → Option Nat) (valid : ρ → Prop) (next : ρ → Nat) (s : Session ρ ν ε)
    (h : Heap) : Prop where
  valid : valid s.registry
  saved : ∀ t, (m.registry.find s.registry t).bind owner = s.saved.find? t
  owned : Owned s.saved h
  busy : ∀ d ∈ s.dispatches, ∀ e ∈ busy d, s.saved.find? (m.token e) = some (m.context e)
    ∨ Subscriptions.Spent m.registry next s.registry (m.token e) ∧ m.context e ∉ h.live
      ∧ m.context e < h.requests

variable {m} {owner : σ → Option Nat} {valid : ρ → Prop} {nextToken : ρ → Nat}
variable {s s' : Session ρ ν ε} {h h' : Heap}

theorem Kept.accounted (hkept : Kept m owner valid nextToken s h) : Accounted m owner s h := by
  constructor
  case live_iff => simpa only [hkept.saved] using hkept.owned.live_iff
  case nodup => exact hkept.owned.nodup
  case unique => simpa only [hkept.saved] using hkept.owned.unique

theorem Kept.raw_live (hkept : Kept m owner valid nextToken s h) (t raw : Nat)
    (hsaved : s.saved.find? t = some raw) : raw ∈ h.live :=
  (hkept.owned.live_iff raw).mpr ⟨t, hsaved⟩

theorem kept_subscribe (hlaws : Laws m owner valid nextToken) (hkept : Kept m owner valid nextToken s h)
    (k : κ) : ∃ s' h', subscribe m k s h = some (s', h') ∧ Kept m owner valid nextToken s' h'
        ∧ s'.dispatches = s.dispatches ∧ ∀ p ∈ h.live, p ∈ h'.live := by
  have hvalid := hlaws.registry.valid_subscribe (m.request k h.requests) s.registry hkept.valid
  rcases subscribe_cases (m := m) k s h with ⟨e, r, hsub, hrun⟩ | ⟨t, r, hsub, hrun⟩
  . rcases hlaws.registry.subscribe_error (m.request k h.requests) s.registry e hkept.valid (by rw [hsub])
      with ⟨hnext, hcore⟩
    rw [hsub] at hvalid hnext hcore
    have hfind := hlaws.core _ _ hcore
    refine ⟨_, _, hrun, ⟨hvalid, ?saved, hkept.owned.request, ?busy⟩, rfl, fun _ hp => hp⟩
    case saved =>
      intro t
      rw [hfind]
      exact hkept.saved t
    case busy =>
      intro d hd e he
      unfold Subscriptions.Spent
      rw [hnext, hfind]
      rcases hkept.busy d hd e he with hpresent | ⟨hspent, hgone, hlt⟩
      . exact .inl hpresent
      . exact .inr ⟨hspent, hgone, Nat.lt_succ_of_lt hlt⟩
  . rcases hlaws.registry.subscribe_ok (m.request k h.requests) s.registry t hkept.valid (by rw [hsub])
      with ⟨htoken, hnext, hfind⟩
    rw [hsub] at hvalid hnext hfind
    have hnone : m.registry.find s.registry t = none := by
      rw [← Option.not_isSome_iff_eq_none]
      intro hsome
      have := hlaws.registry.lt_next s.registry t hkept.valid hsome
      omega
    have hunsaved : s.saved.find? t = none := by
      rw [← hkept.saved, hnone]
      rfl
    refine ⟨_, _, hrun, ⟨hvalid, ?saved', hkept.owned.insert hunsaved, ?busy'⟩, rfl,
      fun p hp => Multiset.mem_cons_of_mem hp⟩
    case saved' =>
      intro t'
      dsimp only
      rw [hfind, OrderedMap.find?_insert]
      split
      . exact hlaws.owner_request k h.requests
      . exact hkept.saved t'
    case busy' =>
      intro d hd e he
      dsimp only at hnext ⊢
      unfold Subscriptions.Spent
      rw [hnext, hfind, OrderedMap.find?_insert]
      rcases hkept.busy d hd e he with hpresent | ⟨⟨hissued, hfree⟩, hgone, hlt⟩
      . refine .inl ?_
        rw [if_neg, hpresent]
        intro htaken
        rw [htaken, hunsaved] at hpresent
        cases hpresent
      . refine .inr ⟨⟨by omega, ?_⟩, ?_, by omega⟩
        . rw [if_neg (by omega), hfree]
        . rw [Multiset.mem_cons, not_or]
          exact ⟨by omega, hgone⟩

theorem find_of_unsubscribe_ok (hlaws : Laws m owner valid nextToken) {r : ρ} (hvalid : valid r) {t : Nat}
    (hok : (m.registry.unsubscribe t r).1 = .ok ()) : (m.registry.find r t).isSome := by
  by_contra hnone
  rw [Option.not_isSome_iff_eq_none] at hnone
  rcases (hlaws.registry.unsubscribe_none t r hvalid hnone).left with ⟨e, herror⟩
  rw [herror] at hok
  cases hok

theorem kept_unsubscribe (hlaws : Laws m owner valid nextToken)
    (hkept : Kept m owner valid nextToken s h) (t : Nat)
    : ∃ s' h', unsubscribe m t s h = some (s', h') ∧ Kept m owner valid nextToken s' h'
        ∧ s'.dispatches = s.dispatches
        ∧ ∀ d ∈ s.dispatches, ∀ e ∈ busy d, m.context e ∈ h.live → (m.context e ∈ h'.live
          ↔ ((m.registry.unsubscribe t s.registry).1 = .ok () → m.token e ≠ t)) := by
  have hvalid := hlaws.registry.valid_unsubscribe t s.registry hkept.valid
  have hpresent : ∀ d ∈ s.dispatches, ∀ e ∈ busy d, m.context e ∈ h.live →
      s.saved.find? (m.token e) = some (m.context e) := by
    intro d hd e he hlive
    rcases hkept.busy d hd e he with hpresent | ⟨_, hgone, _⟩
    . exact hpresent
    . exact absurd hlive hgone
  rcases unsubscribe_cases (m := m) t (hkept.raw_live t)
    with ⟨e, r, hunsub, hrun⟩ | ⟨r, hunsub, hunsaved, hrun⟩ | ⟨r, raw, hunsub, hsaved, hrun⟩
  . have hnone : m.registry.find s.registry t = none := by
      rw [← Option.not_isSome_iff_eq_none]
      intro hsome
      have hok := (hlaws.registry.unsubscribe_some t s.registry hkept.valid hsome).left
      rw [hunsub] at hok
      cases hok
    rcases hlaws.registry.unsubscribe_none t s.registry hkept.valid hnone with ⟨_, hnext, hcore⟩
    rw [hunsub] at hvalid hnext hcore
    have hfind := hlaws.core _ _ hcore
    refine ⟨_, _, hrun, ⟨hvalid, ?_, hkept.owned, ?_⟩, rfl, ?_⟩
    . intro t'
      rw [hfind]
      exact hkept.saved t'
    . intro d hd e' he
      unfold Subscriptions.Spent
      rw [hnext, hfind]
      exact hkept.busy d hd e' he
    . intro d hd e' he hlive
      simp [hunsub, hlive]
  all_goals
    have hsome := find_of_unsubscribe_ok hlaws hkept.valid (t := t) (by rw [hunsub])
    rcases hlaws.registry.unsubscribe_some t s.registry hkept.valid hsome with ⟨_, hnext, hfind⟩
    rw [hunsub] at hvalid hnext hfind
    have hspent : ∀ t', Subscriptions.Spent m.registry nextToken s.registry t' →
        Subscriptions.Spent m.registry nextToken r t' := by
      rintro t' ⟨hissued, hfree⟩
      refine ⟨hnext ▸ hissued, ?_⟩
      rw [hfind, hfree]
      exact ite_self none
  . refine ⟨_, _, hrun, ⟨hvalid, ?_, hkept.owned, ?_⟩, rfl, ?_⟩
    . intro t'
      dsimp only
      rw [hfind]
      split
      . next heq =>
        rw [heq, hunsaved]
        rfl
      . exact hkept.saved t'
    . intro d hd e he
      rcases hkept.busy d hd e he with hpresent | ⟨hold, hgone⟩
      . exact .inl hpresent
      . exact .inr ⟨hspent _ hold, hgone⟩
    . intro d hd e he hlive
      refine iff_of_true hlive fun _ htoken => ?_
      have hfound := hpresent d hd e he hlive
      rw [htoken, hunsaved] at hfound
      cases hfound
  . have howned := hkept.owned.erase hsaved
    refine ⟨_, _, hrun, ⟨hvalid, ?_, howned, ?_⟩, rfl, ?_⟩
    . intro t'
      dsimp only
      rw [hfind, OrderedMap.find?_erase]
      split
      . rfl
      . exact hkept.saved t'
    . intro d hd e he
      dsimp only
      rw [OrderedMap.find?_erase]
      rcases hkept.busy d hd e he with hpresent | ⟨hold, hgone, hlt⟩
      . by_cases htoken : m.token e = t
        . rw [htoken, hsaved] at hpresent
          rw [← Option.some.inj hpresent]
          refine .inr ⟨?_, ?_, hkept.owned.fresh raw (hkept.raw_live t raw hsaved)⟩
          . refine ⟨?_, ?_⟩
            . rw [htoken, hnext]
              exact hlaws.registry.lt_next s.registry t hkept.valid hsome
            . rw [hfind, if_pos htoken]
          . exact hkept.owned.nodup.notMem_erase
        . exact .inl (by rw [if_neg htoken, hpresent])
      . exact .inr ⟨hspent _ hold, fun hmem => hgone (Multiset.mem_of_mem_erase hmem), hlt⟩
    . intro d hd e he hlive
      have hfound := hpresent d hd e he hlive
      dsimp only
      rw [hkept.owned.nodup.mem_erase_iff, and_iff_left hlive, hunsub]
      simp only [true_implies]
      constructor
      . intro hne htoken
        rw [htoken, hsaved] at hfound
        exact hne (Option.some.inj hfound).symm
      . intro hne heq
        rw [heq] at hfound
        exact hne (hkept.owned.unique (m.token e) t raw hfound hsaved)

theorem kept_notify (hlaws : Laws m owner valid nextToken) (hkept : Kept m owner valid nextToken s h)
    (n : ν) : Kept m owner valid nextToken { s with
      dispatches := s.dispatches ++ [{ notification := n, waiting := m.matched n s.registry }] } h := by
  refine ⟨hkept.valid, hkept.saved, hkept.owned, ?_⟩
  intro d hd e he
  rcases List.mem_append.mp hd with hold | hnew
  . exact hkept.busy d hold e he
  . rw [List.mem_singleton.mp hnew] at he
    rw [← hkept.saved]
    exact .inl (hlaws.matched n s.registry hkept.valid e he)

theorem kept_turn (hkept : Kept m owner valid nextToken s h) {dispatches : List (Snapshot.Dispatch ν ε)}
    (hsub : ∀ d' ∈ dispatches, ∀ e ∈ busy d', ∃ d ∈ s.dispatches, e ∈ busy d)
    : Kept m owner valid nextToken { s with dispatches := dispatches } h := by
  refine ⟨hkept.valid, hkept.saved, hkept.owned, ?_⟩
  intro d' hd' e he
  rcases hsub d' hd' e he with ⟨d, hd, hbusy⟩
  exact hkept.busy d hd e hbusy

def KeptWorld (owner : σ → Option Nat) (valid : ρ → Prop) (nextToken : ρ → Nat)
    (world : Option (Session ρ ν ε × Heap)) : Prop :=
  ∀ s h, world = some (s, h) → Kept m owner valid nextToken s h

theorem kept_step (hlaws : Laws m owner valid nextToken) (world : Option (Session ρ ν ε × Heap))
    (action : Action κ ν β) (hkept : KeptWorld (m := m) owner valid nextToken world)
    : KeptWorld (m := m) owner valid nextToken (step m world action) := by
  rintro s' h' hstep
  rcases Option.bind_eq_some_iff.mp hstep with ⟨⟨s, h⟩, rfl, hperform⟩
  have hkept := hkept s h rfl
  cases action with
  | subscribe k =>
    rcases kept_subscribe hlaws hkept k with ⟨_, _, hrun, hkept', _⟩
    cases hrun.symm.trans hperform
    exact hkept'
  | unsubscribe t =>
    rcases kept_unsubscribe hlaws hkept t with ⟨_, _, hrun, hkept', _⟩
    cases hrun.symm.trans hperform
    exact hkept'
  | notify n =>
    cases hperform
    exact kept_notify hlaws hkept n
  | next i result =>
    rcases next_cases (m := m) i result s h with ⟨hfault, _⟩ | ⟨dispatches, hrun, hsub⟩
    . cases hfault.symm.trans hperform
    . cases hrun.symm.trans hperform
      exact kept_turn hkept hsub

theorem kept_run (hlaws : Laws m owner valid nextToken) (actions : List (Action κ ν β))
    {world : Option (Session ρ ν ε × Heap)} (hkept : KeptWorld (m := m) owner valid nextToken world)
    : KeptWorld (m := m) owner valid nextToken (Machine.run (step m) world actions) := by
  induction actions generalizing world with
  | nil => exact hkept
  | cons action actions ih => exact ih (kept_step hlaws world action hkept)

theorem safe_step (hlaws : Laws m owner valid nextToken) {world : Option (Session ρ ν ε × Heap)}
    (action : Action κ ν β) (hkept : KeptWorld (m := m) owner valid nextToken world)
    (hsafe : Safe m world) : Safe m (step m world action) ↔ KeepsBusy m world action := by
  cases world with
  | none => exact absurd rfl (hsafe [])
  | some w =>
    rcases w with ⟨s, h⟩
    have hkept := hkept s h rfl
    have hlive := (safe_iff hlaws.stops).mp hsafe
    cases action with
    | subscribe k =>
      rcases kept_subscribe hlaws hkept k with ⟨s', h', hrun, _, hsame, hgrows⟩
      refine iff_of_true ?_ trivial
      show Safe m (subscribe m k s h)
      rw [hrun]
      apply safe_of_unharmed
      intro d hd e he
      rw [hsame] at hd
      exact hgrows _ (hlive d hd e he)
    | unsubscribe t =>
      rcases kept_unsubscribe hlaws hkept t with ⟨s', h', hrun, _, hsame, hbusy⟩
      show Safe m (unsubscribe m t s h) ↔ _
      rw [hrun, safe_iff hlaws.stops]
      unfold Unharmed
      rw [hsame]
      constructor
      . intro hlive' hok d hd e he
        exact (hbusy d hd e he (hlive d hd e he)).mp (hlive' d hd e he) hok
      . intro hkeeps d hd e he
        exact (hbusy d hd e he (hlive d hd e he)).mpr fun hok => hkeeps hok d hd e he
    | notify n =>
      refine iff_of_true (safe_of_unharmed ?_) trivial
      intro d hd e he
      rcases List.mem_append.mp hd with hold | hnew
      . exact hlive d hold e he
      . rw [List.mem_singleton.mp hnew] at he
        have hfound := hlaws.matched n s.registry hkept.valid e he
        rw [hkept.saved] at hfound
        exact hkept.raw_live _ _ hfound
    | next i result =>
      refine iff_of_true ?_ trivial
      show Safe m (next m i result s h)
      rcases next_cases (m := m) i result s h with ⟨_, d, hd, e, he, hgone⟩ | ⟨dispatches, hrun, hsub⟩
      . exact absurd (hlive d hd e he) hgone
      . rw [hrun]
        apply safe_of_unharmed
        intro d' hd' e he
        rcases hsub d' hd' e he with ⟨d, hd, hbusy⟩
        exact hlive d hd e hbusy

/--
Along every run, the live blocks are those of the subscribed handlers, and no block is used that is gone
exactly when no handler is unsubscribed that waits or runs.
-/
theorem safe_run (hlaws : Laws m owner valid nextToken) {r : ρ} (hvalid : valid r)
    (hempty : ∀ t, m.registry.find r t = none) (actions : List (Action κ ν β))
    : (Machine.Always (step m) (Safe m) (some ({ registry := r }, {})) actions
        ↔ Machine.Guarded (step m) (KeepsBusy m) (some ({ registry := r }, {})) actions)
      ∧ ∀ s h, Machine.run (step m) (some ({ registry := r }, {})) actions = some (s, h) →
        Accounted m owner s h := by
  have hstart : KeptWorld (m := m) owner valid nextToken (some ({ registry := r }, {})) := by
    rintro s h heq
    cases heq
    refine ⟨hvalid, ?_, owned_empty, by simp⟩
    intro t
    rw [hempty]
    rfl
  refine ⟨?_, fun s h hrun => (kept_run hlaws actions hstart s h hrun).accounted⟩
  apply Machine.always_iff_guarded_of_invariant (kept_step hlaws)
    (fun world action => safe_step hlaws action) hstart
  apply safe_of_unharmed
  simp [Unharmed]

end Run

end Contexts
