import Idax.Events.Dispatch

/-!
What callbacks do to the registry: tokens go away or are new, a token that went away does not come
back, and the listener stays as long as some token does.
-/

namespace Idax
namespace Events

variable {κ : Type u} {σ : Type v}

namespace Registry

theorem lt_nextToken (r : Registry κ) (t : Nat) (h : t ∈ r.tokens) : t < r.nextToken :=
  r.valid.lt_nextToken t h

theorem request_eq (req : Request κ) (r : Registry κ)
    : (r.request req).2.nextToken = r.nextToken + 1
      ∧ (∀ t, t ∈ (r.request req).2.tokens ↔ t = r.nextToken ∨ t ∈ r.tokens)
      ∧ (r.request req).2.listener = some (r.listener.getD r.created) := by
  rcases req.exists_run_eq with ⟨sub, hrun⟩
  rcases r.toGlobals.ensureListener_eq with ⟨htoken, hsubs, hlistener⟩
  simp only [request, tokens, hrun, Globals.subscribe, htoken, hsubs, hlistener]
  simp

theorem listener_request (req : Request κ) (r : Registry κ) {t : Nat} (h : t ∈ r.tokens)
    : (r.request req).2.listener = r.listener := by
  have hhooked : r.listener.isSome := r.valid.listener_iff.mpr ⟨t, h⟩
  rw [(request_eq req r).right.right]
  rcases Option.isSome_iff_exists.mp hhooked with ⟨l, hl⟩
  simp [hl]

theorem unsubscribe_eq (token : Nat) (r : Registry κ)
    : (r.unsubscribe token).2.nextToken = r.nextToken
      ∧ (∀ t, t ∈ (r.unsubscribe token).2.tokens ↔ t ∈ r.tokens ∧ t ≠ token) := by
  simp only [unsubscribe, tokens, Globals.unsubscribe]
  split
  . next hfind =>
    refine ⟨rfl, ?_⟩
    intro t
    constructor
    . intro ht
      refine ⟨ht, ?_⟩
      intro heq
      rw [heq, OrderedMap.mem_keys_iff, hfind] at ht
      cases ht
    . intro ht
      apply ht.left
  . split <;> simp

theorem listener_unsubscribe (token : Nat) (r : Registry κ) {t : Nat}
    (h : t ∈ (r.unsubscribe token).2.tokens) : (r.unsubscribe token).2.listener = r.listener := by
  revert h
  simp only [unsubscribe, tokens, Globals.unsubscribe]
  split
  . intro _
    rfl
  . split
    . next hempty =>
      simp only [Bool.and_eq_true, OrderedMap.isEmpty_iff] at hempty
      intro h
      rw [hempty.left] at h
      cases h
    . intro _
      rfl

end Registry

namespace Script

variable {α : Type w}

structure Follows (r r' : Registry κ) : Prop where
  nextToken_le : r.nextToken ≤ r'.nextToken
  tokens : ∀ t, t ∈ r'.tokens → t ∈ r.tokens ∨ r.nextToken ≤ t
  listener : ∀ t, t < r.nextToken → t ∈ r'.tokens → r'.listener = r.listener

theorem Follows.refl (r : Registry κ) : Follows r r := by
  constructor
  case nextToken_le => omega
  case tokens => exact fun t ht => Or.inl ht
  case listener => exact fun _ _ _ => rfl

theorem Follows.trans {r r' r'' : Registry κ} (h : Follows r r') (h' : Follows r' r'')
    : Follows r r'' := by
  have hle := h.nextToken_le
  constructor
  case nextToken_le =>
    have := h'.nextToken_le
    omega
  case tokens =>
    intro t ht
    rcases h'.tokens t ht with hold | hnew
    . apply h.tokens t hold
    . right
      omega
  case listener =>
    intro t hlt ht
    have hbetween : t ∈ r'.tokens := by
      rcases h'.tokens t ht with hold | hnew
      . apply hold
      . omega
    rw [h'.listener t (by omega) ht]
    apply h.listener t hlt hbetween

theorem follows_request (req : Request κ) (r : Registry κ) : Follows r (r.request req).2 := by
  rcases Registry.request_eq req r with ⟨htoken, htokens, _⟩
  constructor
  case nextToken_le => omega
  case tokens =>
    intro t ht
    rcases (htokens t).mp ht with heq | hold
    . right
      omega
    . apply Or.inl hold
  case listener =>
    intro t hlt ht
    rcases (htokens t).mp ht with heq | hold
    . omega
    . apply Registry.listener_request req r hold

theorem follows_unsubscribe (token : Nat) (r : Registry κ)
    : Follows r (r.unsubscribe token).2 := by
  rcases Registry.unsubscribe_eq token r with ⟨htoken, htokens⟩
  constructor
  case nextToken_le => omega
  case tokens => exact fun t ht => Or.inl ((htokens t).mp ht).left
  case listener => exact fun t _ ht => Registry.listener_unsubscribe token r ht

theorem follows_run (script : Script κ α) (r : Registry κ) : Follows r (script.run r).2 := by
  induction script generalizing r with
  | done result => exact Follows.refl r
  | request call next ih =>
    apply (follows_request call r).trans
    apply ih (r.request call).1 (r.request call).2
  | unsubscribe token next ih =>
    apply (follows_unsubscribe token r).trans
    apply ih (r.unsubscribe token).1 (r.unsubscribe token).2

end Script

namespace DispatchState

variable (cb : Callbacks κ σ)

structure TurnOf (t : Nat) (s s' : DispatchState κ σ) : Prop where
  follows : Script.Follows s.registry s'.registry
  calls : ∃ calls, s'.calls = s.calls ++ calls ∧ ∀ c ∈ calls, c.token = t

theorem TurnOf.refl (t : Nat) (s : DispatchState κ σ) : TurnOf t s s :=
  ⟨Script.Follows.refl s.registry, [], by simp, by simp⟩

theorem TurnOf.trans {t : Nat} {s s' s'' : DispatchState κ σ} (h : TurnOf t s s')
    (h' : TurnOf t s' s'') : TurnOf t s s'' := by
  rcases h with ⟨hfollows, calls, heq, htoken⟩
  rcases h' with ⟨hfollows', calls', heq', htoken'⟩
  refine ⟨hfollows.trans hfollows', calls ++ calls', ?_, ?_⟩
  . rw [heq', heq]
    simp
  . intro c hc
    rcases List.mem_append.mp hc with hc | hc
    . apply htoken c hc
    . apply htoken' c hc

theorem TurnOf.mem_calls {t : Nat} {s s' : DispatchState κ σ} (h : TurnOf t s s') {c : Call κ}
    (hc : c ∈ s.calls) : c ∈ s'.calls := by
  rcases h.calls with ⟨calls, heq, _⟩
  rw [heq]
  apply List.mem_append_left _ hc

theorem TurnOf.exists_call {t : Nat} {s s' : DispatchState κ σ} (h : TurnOf t s s')
    (hcalls : s'.calls ≠ s.calls) : ∃ c ∈ s'.calls, c.token = t := by
  rcases h.calls with ⟨calls, heq, htoken⟩
  cases calls with
  | nil =>
    rw [List.append_nil] at heq
    contradiction
  | cons c rest =>
    refine ⟨c, ?_, htoken c List.mem_cons_self⟩
    simp [heq]

def Idle (target : Subscription κ → Option κ) (s : DispatchState κ σ) (t : Nat) : Prop :=
  ∀ sub, s.registry.subscriptions.find? t = some sub → target sub = none

theorem exists_target_of_not_idle {target : Subscription κ → Option κ} {s : DispatchState κ σ}
    {t : Nat} (h : ¬ s.Idle target t)
    : ∃ sub callback, s.registry.subscriptions.find? t = some sub ∧ target sub = some callback := by
  simp only [Idle, not_forall] at h
  rcases h with ⟨sub, hsub, htarget⟩
  rcases Option.ne_none_iff_exists'.mp htarget with ⟨callback, hcallback⟩
  exact ⟨sub, callback, hsub, hcallback⟩

theorem callHandler_turnOf (t : Nat) (callback : κ) (args : Args) (s : DispatchState κ σ)
    : TurnOf t s (callHandler cb t callback args s) := by
  constructor
  case follows => apply Script.follows_run
  case calls => exact ⟨[.handler t callback args], rfl, by simp [Call.token]⟩

theorem callFilter_turnOf (t : Nat) (callback : κ) (event : Event) (s : DispatchState κ σ)
    : TurnOf t s (callFilter cb t callback event s).2 := by
  constructor
  case follows => apply Script.follows_run
  case calls => exact ⟨[.filter t callback event], rfl, by simp [Call.token]⟩

theorem typedTurn_turnOf (route : Route κ) (t : Nat) (s : DispatchState κ σ)
    : TurnOf t s (typedTurn cb route t s) := by
  unfold typedTurn
  split
  . apply TurnOf.refl t s
  . apply callHandler_turnOf

theorem genericTurn_turnOf (event : Event) (t : Nat) (s : DispatchState κ σ)
    : TurnOf t s (genericTurn cb event t s) := by
  unfold genericTurn
  split
  . apply TurnOf.refl t s
  . split
    . apply TurnOf.refl t s
    . split
      . apply callHandler_turnOf
      . next filter _ =>
        have hfilter := callFilter_turnOf cb t filter event s
        simp only
        split
        . apply hfilter.trans
          apply callHandler_turnOf
        . apply hfilter

end DispatchState

open DispatchState

variable (cb : Callbacks κ σ)

theorem find?_eq_some_of_mem_tokens {s : DispatchState κ σ} {t : Nat} (h : t ∈ s.tokens)
    : ∃ sub, s.registry.subscriptions.find? t = some sub := by
  apply Option.isSome_iff_exists.mp
  rw [← OrderedMap.mem_keys_iff]
  apply h

theorem conforms_of_turnOf {body : Nat → DispatchState κ σ → DispatchState κ σ}
    {visit : Nat → DispatchState κ σ → Option (DispatchState κ σ)}
    (hturn : ∀ t s, TurnOf t s (body t s))
    (hkept : ∀ t s, t ∈ s.tokens → t ∈ (body t s).tokens → visit t s = some (body t s))
    (hlost : ∀ t s, t ∈ s.tokens → t ∉ (body t s).tokens
      → visit t s = none ∨ ∃ s', visit t s = some s' ∧ t ∉ s'.tokens)
    : LiveLoop.Conforms tokens body visit fun s => s.registry.nextToken := by
  constructor
  case sorted => exact fun s => s.registry.subscriptions.keys_sorted
  case lt_fresh => exact fun s => s.registry.lt_nextToken
  case grows => exact fun t s => (hturn t s).follows.tokens
  case fresh_le => exact fun t s => (hturn t s).follows.nextToken_le
  case kept => exact hkept
  case lost => exact hlost

theorem turnOf_of_typedVisit {route : Route κ} {t : Nat} {s s' : DispatchState κ σ}
    (h : typedVisit cb route t s = some s') : TurnOf t s s' := by
  unfold typedVisit at h
  split at h
  . cases h
  . split at h
    . cases h
      apply TurnOf.refl t s
    . cases h
      apply callHandler_turnOf

theorem turnOf_of_genericVisit {event : Event} {t : Nat} {s s' : DispatchState κ σ}
    (h : genericVisit cb event t s = some s') : TurnOf t s s' := by
  unfold genericVisit at h
  split at h
  . cases h
  . split at h
    . cases h
      apply TurnOf.refl t s
    . split at h
      . cases h
        apply callHandler_turnOf
      . next filter _ =>
        have hfilter := callFilter_turnOf cb t filter event s
        simp only at h
        split at h
        . cases h
          apply hfilter
        . split at h
          . cases h
            apply hfilter.trans
            apply callHandler_turnOf
          . cases h

theorem typedVisit_eq (route : Route κ) (t : Nat) (s : DispatchState κ σ) (h : t ∈ s.tokens)
    : typedVisit cb route t s = some (typedTurn cb route t s) := by
  rcases find?_eq_some_of_mem_tokens h with ⟨sub, hsub⟩
  simp only [typedVisit, typedTurn, hsub, Option.bind_some]
  cases route.target sub <;> rfl

theorem conforms_typedVisit (route : Route κ)
    : LiveLoop.Conforms tokens (typedTurn cb route) (typedVisit cb route)
        fun s => s.registry.nextToken := by
  apply conforms_of_turnOf (typedTurn_turnOf cb route)
  . intro t s ht _
    apply typedVisit_eq cb route t s ht
  . intro t s ht hgone
    apply Or.inr ⟨_, typedVisit_eq cb route t s ht, hgone⟩

theorem genericVisit_of_kept {event : Event} {t : Nat} {s : DispatchState κ σ} (ht : t ∈ s.tokens)
    (hkept : t ∈ (genericTurn cb event t s).tokens)
    : genericVisit cb event t s = some (genericTurn cb event t s) := by
  rcases find?_eq_some_of_mem_tokens ht with ⟨sub, hsub⟩
  revert hkept
  simp only [genericVisit, genericTurn, hsub]
  cases sub.genericTarget with
  | none => simp
  | some callback =>
    cases sub.filter with
    | none => simp
    | some filter =>
      simp only
      cases (callFilter cb t filter event s).1 with
      | false => simp
      | true =>
        intro hkept
        have hfilter := (callFilter_turnOf cb t filter event s).follows
        have hhandler := callHandler_turnOf cb t callback (.event event)
          (callFilter cb t filter event s).2
        have hlt := s.registry.lt_nextToken t ht
        have hle := hfilter.nextToken_le
        -- The handler cannot bring the token back, so the filter has left it in place.
        have hstill : t ∈ (callFilter cb t filter event s).2.tokens := by
          rcases hhandler.follows.tokens t hkept with hold | hnew
          . apply hold
          . omega
        simp [hstill]

theorem genericVisit_of_lost {event : Event} {t : Nat} {s : DispatchState κ σ} (ht : t ∈ s.tokens)
    (hlost : t ∉ (genericTurn cb event t s).tokens)
    : genericVisit cb event t s = none
        ∨ ∃ s', genericVisit cb event t s = some s' ∧ t ∉ s'.tokens := by
  rcases find?_eq_some_of_mem_tokens ht with ⟨sub, hsub⟩
  revert hlost
  simp only [genericVisit, genericTurn, hsub]
  cases sub.genericTarget with
  | none => simp [ht]
  | some callback =>
    cases sub.filter with
    | none => simp
    | some filter =>
      simp only
      cases (callFilter cb t filter event s).1 with
      | false => simp
      | true =>
        simp only [Bool.not_true, Bool.false_eq_true, if_false, if_true]
        split <;> simp

theorem conforms_genericVisit (event : Event)
    : LiveLoop.Conforms tokens (genericTurn cb event) (genericVisit cb event)
        fun s => s.registry.nextToken := by
  apply conforms_of_turnOf (genericTurn_turnOf cb event)
  . intro t s
    apply genericVisit_of_kept
  . intro t s
    apply genericVisit_of_lost

theorem typedTurn_of_idle {route : Route κ} {t : Nat} {s : DispatchState κ σ}
    (h : s.Idle route.target t) : typedTurn cb route t s = s := by
  unfold typedTurn
  cases hsub : s.registry.subscriptions.find? t with
  | none => rfl
  | some sub => simp [h sub hsub]

theorem calls_typedTurn_ne {route : Route κ} {t : Nat} {s : DispatchState κ σ}
    (h : ¬ s.Idle route.target t) : (typedTurn cb route t s).calls ≠ s.calls := by
  rcases exists_target_of_not_idle h with ⟨sub, callback, hsub, htarget⟩
  simp [typedTurn, hsub, htarget, callHandler]

theorem genericTurn_of_idle {event : Event} {t : Nat} {s : DispatchState κ σ}
    (h : s.Idle Subscription.genericTarget t) : genericTurn cb event t s = s := by
  unfold genericTurn
  cases hsub : s.registry.subscriptions.find? t with
  | none => rfl
  | some sub => simp [h sub hsub]

theorem calls_genericTurn_ne {event : Event} {t : Nat} {s : DispatchState κ σ}
    (h : ¬ s.Idle Subscription.genericTarget t) : (genericTurn cb event t s).calls ≠ s.calls := by
  rcases exists_target_of_not_idle h with ⟨sub, callback, hsub, htarget⟩
  simp only [genericTurn, hsub, htarget]
  cases sub.filter with
  | none => simp [callHandler]
  | some filter =>
    simp only
    split <;> simp [callHandler, callFilter]

end Events
end Idax
