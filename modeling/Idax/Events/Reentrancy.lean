import Idax.Events.Lemmas.Dispatch

/-!
When a dispatch does what it is for although its callbacks subscribe and unsubscribe: none of them
may take its own token away, since the loop still stands on it, and none may leave a new
subscription of the kind that the loop still looks for, since the loop goes on into it.
-/

namespace Idax
namespace Events

variable {κ : Type u} {σ : Type v}

namespace DispatchState

def start (world : σ) (registry : Registry κ) : DispatchState κ σ :=
  { world := world, registry := registry, calls := [] }

structure Phase (target : Subscription κ → Option κ)
    (body : Nat → DispatchState κ σ → DispatchState κ σ)
    (visit : Nat → DispatchState κ σ → Option (DispatchState κ σ)) : Prop where
  conforms : LiveLoop.Conforms tokens body visit fun s => s.registry.nextToken
  turnOf : ∀ t s, TurnOf t s (body t s)
  turnOf_visit : ∀ t s s', visit t s = some s' → TurnOf t s s'
  idle : ∀ t s, s.Idle target t → body t s = s
  calls_ne : ∀ t s, ¬ s.Idle target t → (body t s).calls ≠ s.calls

theorem typedPhase (cb : Callbacks κ σ) (route : Route κ)
    : Phase route.target (typedTurn cb route) (typedVisit cb route) := by
  constructor
  case conforms => apply conforms_typedVisit
  case turnOf => apply typedTurn_turnOf
  case turnOf_visit => exact fun t s s' h => turnOf_of_typedVisit cb h
  case idle => exact fun t s h => typedTurn_of_idle cb h
  case calls_ne => exact fun t s h => calls_typedTurn_ne cb h

theorem genericPhase (cb : Callbacks κ σ) (event : Event)
    : Phase Subscription.genericTarget (genericTurn cb event) (genericVisit cb event) := by
  constructor
  case conforms => apply conforms_genericVisit
  case turnOf => apply genericTurn_turnOf
  case turnOf_visit => exact fun t s s' h => turnOf_of_genericVisit cb h
  case idle => exact fun t s h => genericTurn_of_idle cb h
  case calls_ne => exact fun t s h => calls_genericTurn_ne cb h

def CallsBelow (b : Nat) (s : DispatchState κ σ) : Prop :=
  ∀ c ∈ s.calls, c.token < b

theorem TurnOf.callsBelow {t b : Nat} {s s' : DispatchState κ σ} (h : TurnOf t s s') (ht : t < b)
    (hs : s.CallsBelow b) : s'.CallsBelow b := by
  rcases h.calls with ⟨calls, heq, htoken⟩
  intro c hc
  rw [heq] at hc
  rcases List.mem_append.mp hc with hc | hc
  . apply hs c hc
  . rw [htoken c hc]
    apply ht

section Phase

variable {target : Subscription κ → Option κ}
variable {body : Nat → DispatchState κ σ → DispatchState κ σ}
variable {visit : Nat → DispatchState κ σ → Option (DispatchState κ σ)}

theorem Phase.mem_calls_of_ends (hphase : Phase target body visit) {it : Option Nat}
    {s s' : DispatchState κ σ} (h : LiveLoop.Ends tokens visit it s (some s')) {c : Call κ}
    (hc : c ∈ s.calls) : c ∈ s'.calls := by
  apply h.invariant (P := fun s => c ∈ s.calls) _ rfl hc
  intro t s s' hvisit hs
  exact (hphase.turnOf_visit t s s' hvisit).mem_calls hs

theorem Phase.exists_call_of_not_idle (hphase : Phase target body visit) {b t : Nat}
    {s s' : DispatchState κ σ} (ht : b ≤ t) (hactive : ¬ s.Idle target t)
    (h : LiveLoop.Ends tokens visit (LiveLoop.seek tokens s b) s (some s'))
    : ∃ c ∈ s'.calls, b ≤ c.token := by
  have hpending : ∃ k ∈ s.tokens, b ≤ k ∧ body k s ≠ s := by
    rcases exists_target_of_not_idle hactive with ⟨sub, _, hsub, _⟩
    refine ⟨t, OrderedMap.mem_keys_of_find? hsub, ht, ?_⟩
    intro heq
    apply hphase.calls_ne t s hactive
    rw [heq]
  rcases LiveLoop.exists_visit_of_not_idle hphase.conforms hpending h
    with ⟨k, _, hk, hchanges, _, hrest⟩
  have hcalled : ¬ s.Idle target k := by
    intro hidle
    apply hchanges (hphase.idle k s hidle)
  rcases (hphase.turnOf k s).exists_call (hphase.calls_ne k s hcalled) with ⟨c, hc, htoken⟩
  refine ⟨c, hphase.mem_calls_of_ends hrest hc, ?_⟩
  omega

theorem Phase.callsBelow_sweep (hphase : Phase target body visit) {ks : List Nat} {b : Nat}
    (hlt : ∀ k ∈ ks, k < b) {s : DispatchState κ σ} (hs : s.CallsBelow b)
    : (LiveLoop.sweep tokens body ks s).CallsBelow b := by
  apply LiveLoop.sweep_invariant (P := CallsBelow b) _ hs
  intro k hk s hs
  exact (hphase.turnOf k s).callsBelow (hlt k hk) hs

theorem Phase.ends_iff (hphase : Phase target body visit) {ks : List Nat} {b : Nat}
    {s s' : DispatchState κ σ}
    (hcovers : LiveLoop.Covers tokens (fun s => s.registry.nextToken) ks s 0 b)
    (hs : s.CallsBelow b)
    : LiveLoop.Ends tokens visit (LiveLoop.seek tokens s 0) s (some s') ∧ s'.CallsBelow b
      ↔ (LiveLoop.KeepsKeys tokens body ks s
          ∧ ∀ t, b ≤ t → (LiveLoop.sweep tokens body ks s).Idle target t)
        ∧ s' = LiveLoop.sweep tokens body ks s := by
  have hfresh := (hcovers.sweep hphase.conforms).le_fresh
  constructor
  . intro ⟨hends, hbelow⟩
    have hkeeps : LiveLoop.KeepsKeys tokens body ks s := by
      by_contra hloses
      have hfault := LiveLoop.ends_fault_of_not_keepsKeys hphase.conforms (Nat.zero_le b) hcovers
        hloses
      cases hends.unique hfault
    rw [LiveLoop.ends_iff_of_keepsKeys hphase.conforms (Nat.zero_le b) hcovers hkeeps] at hends
    have hidle : ∀ t, b ≤ t → (LiveLoop.sweep tokens body ks s).Idle target t := by
      intro t ht
      by_contra hactive
      -- The loop goes on to the new token and leaves a call of it behind.
      rcases hphase.exists_call_of_not_idle ht hactive hends with ⟨c, hc, hle⟩
      have hlt := hbelow c hc
      omega
    refine ⟨⟨hkeeps, hidle⟩, ?_⟩
    have hall := LiveLoop.ends_of_all_idle hphase.conforms hfresh fun t _ ht =>
      hphase.idle t _ (hidle t ht)
    cases hends.unique hall
    rfl
  . rintro ⟨⟨hkeeps, hidle⟩, rfl⟩
    refine ⟨?_, hphase.callsBelow_sweep hcovers.lt hs⟩
    rw [LiveLoop.ends_iff_of_keepsKeys hphase.conforms (Nat.zero_le b) hcovers hkeeps]
    apply LiveLoop.ends_of_all_idle hphase.conforms hfresh
    intro t _ ht
    apply hphase.idle t _ (hidle t ht)

end Phase

end DispatchState

open DispatchState

variable (cb : Callbacks κ σ)

/--
What the callbacks of a dispatch must not do: `own_typed` and `own_generic` say that no turn takes
its own token away, `new_typed` and `new_generic` that no new subscription waits for the loop.
-/
structure Undisturbed (route : Route κ) (s : DispatchState κ σ) : Prop where
  own_typed : LiveLoop.KeepsKeys tokens (typedTurn cb route) s.tokens s
  new_typed : ∀ t, s.registry.nextToken ≤ t → (deliverTyped cb route s).Idle route.target t
  own_generic : LiveLoop.KeepsKeys tokens (genericTurn cb route.event) s.tokens
    (deliverTyped cb route s)
  new_generic : ∀ t, s.registry.nextToken ≤ t
    → (deliver cb route s).Idle Subscription.genericTarget t

/--
The dispatch ends without a fault, has made the calls that it is for, each once and in order, and
leaves the listener that runs it in place.
-/
def Delivers (notification : Notification) (world : σ) (registry : Registry κ) : Prop :=
  ∃ bound, ∀ fuel, bound ≤ fuel →
    ∃ s, onEvent cb fuel notification (start world registry) = .done s
      ∧ s.calls = (match notification.route with
          | some route => (deliver cb route (start world registry)).calls
          | none => [])
      ∧ s.registry.listener = registry.listener

theorem ends_of_dispatch {fuel : Nat} {route : Route κ} {s s' : DispatchState κ σ}
    (h : dispatch cb fuel route s = .done s')
    : ∃ s1, LiveLoop.Ends tokens (typedVisit cb route) (LiveLoop.seek tokens s 0) s (some s1)
      ∧ LiveLoop.Ends tokens (genericVisit cb route.event) (LiveLoop.seek tokens s1 0) s1
        (some s') := by
  unfold dispatch at h
  split at h
  . next s1 htyped => exact ⟨s1, LiveLoop.ends_of_loop htyped, LiveLoop.ends_of_loop h⟩
  . next hout => exact absurd h (hout s')

theorem exists_bound_dispatch {route : Route κ} {s s1 s' : DispatchState κ σ}
    (htyped : LiveLoop.Ends tokens (typedVisit cb route) (LiveLoop.seek tokens s 0) s (some s1))
    (hgeneric : LiveLoop.Ends tokens (genericVisit cb route.event) (LiveLoop.seek tokens s1 0) s1
      (some s'))
    : ∃ bound, ∀ fuel, bound ≤ fuel → dispatch cb fuel route s = .done s' := by
  rcases htyped.exists_bound with ⟨b1, htyped⟩
  rcases hgeneric.exists_bound with ⟨b2, hgeneric⟩
  refine ⟨max b1 b2, ?_⟩
  intro fuel hfuel
  have htyped := htyped fuel (by omega)
  have hgeneric := hgeneric fuel (by omega)
  simp only [dispatch, dispatchLoop, htyped, LiveLoop.outcomeOf]
  apply hgeneric

theorem covers_tokens (s : DispatchState κ σ)
    : LiveLoop.Covers tokens (fun s => s.registry.nextToken) s.tokens s 0
        s.registry.nextToken := by
  constructor
  case sorted => exact s.registry.subscriptions.keys_sorted
  case le => exact fun k _ => Nat.zero_le k
  case lt => exact s.registry.lt_nextToken
  case covered => exact fun k hk _ _ => hk
  case le_fresh => exact Nat.le_refl _

theorem callsBelow_start (world : σ) (registry : Registry κ) (b : Nat)
    : (start world registry).CallsBelow b := by
  simp [start, CallsBelow]

theorem callsBelow_deliver (route : Route κ) {s : DispatchState κ σ}
    (hs : s.CallsBelow s.registry.nextToken)
    : (deliver cb route s).CallsBelow s.registry.nextToken := by
  apply (genericPhase cb route.event).callsBelow_sweep (covers_tokens s).lt
  exact (typedPhase cb route).callsBelow_sweep (covers_tokens s).lt hs

theorem ends_iff_undisturbed (route : Route κ) {s s' : DispatchState κ σ}
    (hs : s.CallsBelow s.registry.nextToken)
    : (∃ s1, LiveLoop.Ends tokens (typedVisit cb route) (LiveLoop.seek tokens s 0) s (some s1)
        ∧ LiveLoop.Ends tokens (genericVisit cb route.event) (LiveLoop.seek tokens s1 0) s1
          (some s'))
      ∧ s'.CallsBelow s.registry.nextToken
      ↔ Undisturbed cb route s ∧ s' = deliver cb route s := by
  have htyped := typedPhase cb route
  have hgeneric := genericPhase cb route.event
  have hcovers := covers_tokens s
  have hbelow := htyped.callsBelow_sweep hcovers.lt hs
  constructor
  . intro ⟨⟨s1, hends1, hends2⟩, hcalls⟩
    have hcalls1 : s1.CallsBelow s.registry.nextToken := by
      intro c hc
      apply hcalls c (hgeneric.mem_calls_of_ends hends2 hc)
    have ⟨⟨hown1, hnew1⟩, heq⟩ := (htyped.ends_iff hcovers hs).mp ⟨hends1, hcalls1⟩
    rw [heq] at hends2
    have ⟨⟨hown2, hnew2⟩, heq⟩ := (hgeneric.ends_iff (hcovers.sweep htyped.conforms) hbelow).mp
      ⟨hends2, hcalls⟩
    exact ⟨⟨hown1, hnew1, hown2, hnew2⟩, heq⟩
  . rintro ⟨h, rfl⟩
    have ⟨hends1, _⟩ := (htyped.ends_iff hcovers hs).mpr ⟨⟨h.own_typed, h.new_typed⟩, rfl⟩
    have ⟨hends2, hcalls⟩ := (hgeneric.ends_iff (hcovers.sweep htyped.conforms) hbelow).mpr
      ⟨⟨h.own_generic, h.new_generic⟩, rfl⟩
    exact ⟨⟨deliverTyped cb route s, hends1, hends2⟩, hcalls⟩

theorem Undisturbed.listener_eq {route : Route κ} {s : DispatchState κ σ}
    (h : Undisturbed cb route s) : (deliver cb route s).registry.listener = s.registry.listener := by
  apply LiveLoop.sweep_invariant_of_keepsKeys
    (P := fun s' => s'.registry.listener = s.registry.listener) _ h.own_generic
  . apply LiveLoop.sweep_invariant_of_keepsKeys
      (P := fun s' => s'.registry.listener = s.registry.listener) _ h.own_typed rfl
    intro t s' ht hkept heq
    rw [← heq]
    exact ((typedPhase cb route).turnOf t s').follows.listener t (s'.registry.lt_nextToken t ht) hkept
  . intro t s' ht hkept heq
    rw [← heq]
    exact ((genericPhase cb route.event).turnOf t s').follows.listener t
      (s'.registry.lt_nextToken t ht) hkept

theorem delivers_iff (notification : Notification) (world : σ) (registry : Registry κ)
    : Delivers cb notification world registry
      ↔ ∀ route, notification.route = some route → Undisturbed cb route (start world registry) := by
  unfold Delivers onEvent
  cases notification.route with
  | none =>
    simp only [reduceCtorEq, false_implies, implies_true, iff_true]
    exact ⟨0, fun fuel _ => ⟨start world registry, rfl, rfl, rfl⟩⟩
  | some route =>
    simp only [Option.some.injEq, forall_eq']
    have hs := callsBelow_start world registry registry.nextToken
    constructor
    . intro ⟨bound, h⟩
      rcases h bound (Nat.le_refl bound) with ⟨s', hdone, hcalls, _⟩
      have hbelow : s'.CallsBelow registry.nextToken := by
        intro c hc
        rw [hcalls] at hc
        apply callsBelow_deliver cb route hs c hc
      exact ((ends_iff_undisturbed cb route hs).mp ⟨ends_of_dispatch cb hdone, hbelow⟩).left
    . intro h
      have ⟨⟨s1, htyped, hgeneric⟩, _⟩ := (ends_iff_undisturbed cb route hs).mpr ⟨h, rfl⟩
      rcases exists_bound_dispatch cb htyped hgeneric with ⟨bound, hdone⟩
      refine ⟨bound, ?_⟩
      intro fuel hfuel
      exact ⟨_, hdone fuel hfuel, rfl, h.listener_eq⟩

section Disturbed

/-!
Handlers are named by numbers here: handler 0 does something to the registry and the others nothing.
-/

def scripted (script : Script Nat Unit) : Callbacks Nat Unit where
  handler callback _ _ := if callback = 0 then script else .done ()
  filter _ _ _ := .done (true, ())

def oneHandler : Registry Nat :=
  (Registry.initial.request (.onSegmentAdded (some 0))).2

theorem not_delivers_of_unsubscribe
    : ¬ Delivers (scripted (.unsubscribe 1 fun _ => .done ())) (.segmAdded 4096) () oneHandler := by
  intro ⟨bound, h⟩
  rcases h (bound + 1) (by omega) with ⟨s, hdone, _⟩
  have hfault : onEvent (scripted (.unsubscribe 1 fun _ => .done ())) (bound + 1)
      (.segmAdded 4096) (start () oneHandler) = .fault := rfl
  rw [hfault] at hdone
  cases hdone

-- The new handler 1 is called for the event that was there before it.
example :
    (match onEvent (scripted (.request (.onSegmentAdded (some 1)) fun _ => .done ())) 4
        (.segmAdded 4096) (start () oneHandler) with
      | .done s => s.calls.map Call.token
      | _ => []) = [1, 2] := by
  rfl

end Disturbed

end Events
end Idax
