import Idax.Decompiler.Subscriptions
import Idax.Events.Lemmas.Dispatch
import Idax.Library.Subscriptions
import Idax.Listeners.Debugger
import Idax.Listeners.Lemmas.Listener

/-!
The registries of `ida::event`, `ida::debugger` and `ida::decompiler` do the same thing in three
ways: with one map and a listener that is created and deleted, with a list and a flag, and with six
maps and one bridge. Each of them is in step with the SDK.
-/

namespace Idax

open Subscriptions (Model Laws InStep)

variable {κ : Type u}

namespace Events

def Request.subscription : Request κ → Subscription κ
  | .onSegmentAdded callback => { kind := .segmentAdded, onAddr := callback }
  | .onSegmentDeleted callback => { kind := .segmentDeleted, onAddr2 := callback }
  | .onFunctionAdded callback => { kind := .functionAdded, onAddr := callback }
  | .onFunctionDeleted callback => { kind := .functionDeleted, onAddr := callback }
  | .onRenamed callback => { kind := .renamed, onRenamed := callback }
  | .onBytePatched callback => { kind := .bytePatched, onPatched := callback }
  | .onCommentChanged callback => { kind := .commentChanged, onComment := callback }
  | .onEvent callback => { kind := .generic, onEvent := callback }
  | .onEventFiltered filter callback => { kind := .generic, filter := filter, onEvent := callback }

theorem Request.run_eq (request : Request κ)
    : request.run = Globals.subscribe request.subscription := by
  cases request <;> rfl

def model (κ : Type u)
    : Model Error (Globals κ) (Request κ) (Subscription κ) (Globals κ) where
  subscribe := Request.run
  unsubscribe := Globals.unsubscribe
  subscription := Request.subscription
  find := fun g => g.subscriptions.find?
  installed := fun g => g.listener.isSome
  core := id

theorem laws : Laws (model κ) Globals.Valid Globals.nextToken := by
  constructor
  case valid_subscribe => exact fun request g hvalid => request.valid_run g hvalid
  case valid_unsubscribe => exact fun t g hvalid => Globals.valid_unsubscribe t g hvalid
  case lt_next =>
    intro g t hvalid hsome
    apply hvalid.lt_nextToken t
    rw [OrderedMap.mem_keys_iff]
    apply hsome
  case installed_iff =>
    intro g hvalid
    simp only [model, hvalid.listener_iff, OrderedMap.mem_keys_iff]
  case subscribe_ok =>
    intro request g t _ hok
    rcases g.ensureListener_eq with ⟨htoken, hsubs, _⟩
    simp only [model, Request.run_eq, Globals.subscribe, htoken, hsubs] at hok ⊢
    cases hok
    simp
  case subscribe_error =>
    intro request g e _ herror
    simp only [model, Request.run_eq, Globals.subscribe] at herror
    cases herror
  case unsubscribe_some =>
    intro t g _ hsome
    rcases Option.isSome_iff_exists.mp hsome with ⟨sub, hfind⟩
    simp only [model] at hfind
    simp only [model, Globals.unsubscribe, hfind]
    split <;> simp [ok]
  case unsubscribe_none =>
    intro t g _ hnone
    simp only [model] at hnone
    simp only [model, Globals.unsubscribe, hnone]
    simp

end Events

namespace Debugger

def model (κ : Type u)
    : Model Error (DbgListener κ) (Hook × κ) (NotificationCode × Handler κ)
        (Listener NotificationCode (Handler κ)) where
  subscribe := fun a => DbgListener.subscribe a.1 a.2
  unsubscribe := DbgListener.unsubscribe
  subscription := fun a => (a.1.code, ⟨a.1, a.2⟩)
  find := fun l => l.toListener.find
  installed := fun l => l.hooked
  core := DbgListener.toListener

theorem laws : Laws (model κ) (fun l => l.toListener.Valid) (fun l => l.nextToken + 1) := by
  constructor
  case valid_subscribe => exact fun a l hvalid => Listener.valid_subscribe hvalid _ _
  case valid_unsubscribe => exact fun t l hvalid => Listener.valid_unsubscribe hvalid t
  case lt_next =>
    intro l t hvalid hsome
    rcases Listener.find_isSome_iff.mp hsome with ⟨sub, hsub, rfl⟩
    have := hvalid.issued sub hsub
    omega
  case installed_iff =>
    intro l hvalid
    simp only [model, Listener.find_isSome_iff]
    rw [hvalid.hooked_iff]
    constructor
    . intro hne
      rcases List.exists_mem_of_ne_nil _ hne with ⟨sub, hsub⟩
      exact ⟨sub.token, sub, hsub, rfl⟩
    . rintro ⟨_, sub, hsub, _⟩
      apply List.ne_nil_of_mem hsub
  case subscribe_ok =>
    intro a l t hvalid hok
    refine ⟨?_, ?_, ?_⟩
    . simp only [model, DbgListener.subscribe, Listener.subscribe_eq] at hok
      cases hok
      rfl
    . simp [model, DbgListener.subscribe, Listener.subscribe_eq]
    . intro t'
      simp only [model, DbgListener.subscribe] at hok ⊢
      rw [Listener.find_subscribe hvalid]
      rw [Listener.subscribe_eq] at hok
      cases hok
      rfl
  case subscribe_error =>
    intro a l e _ herror
    simp only [model, DbgListener.subscribe] at herror
    cases herror
  case unsubscribe_some =>
    intro t l hvalid hsome
    rcases Listener.find_isSome_iff.mp hsome with ⟨sub, hsub, rfl⟩
    have hremoved := Listener.unsubscribe_of_mem hvalid hsub
    refine ⟨?_, ?_, ?_⟩
    . simp [model, DbgListener.unsubscribe, hremoved, ok]
    . simp [model, DbgListener.unsubscribe, hremoved]
    . intro t'
      apply Listener.find_unsubscribe hvalid
  case unsubscribe_none =>
    intro t l hvalid hnone
    have hnot : ∀ sub ∈ l.subs, sub.token ≠ t := by
      intro sub hsub htoken
      have hsome : (l.toListener.find t).isSome := Listener.find_isSome_iff.mpr ⟨sub, hsub, htoken⟩
      simp only [model] at hnone
      rw [hnone] at hsome
      cases hsome
    have hsame := Listener.unsubscribe_of_not_mem hnot
    refine ⟨?_, ?_, ?_⟩
    . simp [model, DbgListener.unsubscribe, hsame]
    . simp [model, DbgListener.unsubscribe, hsame]
    . simp [model, DbgListener.unsubscribe, hsame]

end Debugger

namespace Decompiler

def model (κ : Type u)
    : Model Error (Globals κ) (Request κ × Globals.Answers) (CallbackMap × Option κ)
        (Callbacks κ) where
  subscribe := fun a => a.1.run a.2
  unsubscribe := Globals.unsubscribe
  subscription := fun a => a.1.subscription
  find := fun g token => (g.find token).map fun p => (p.1, some p.2)
  installed := fun g => g.hexraysCallbackInstalled
  core := Globals.toCallbacks

theorem laws : Laws (model κ) (fun g => g.toCallbacks.Valid) (fun g => g.nextToken) := by
  have hinstalled : ∀ g : Globals κ, g.toCallbacks.Valid →
      Callbacks.Distinct { g.toCallbacks with hexraysCallbackInstalled := true } :=
    fun g hvalid => ⟨hvalid.pos, hvalid.keys, hvalid.disjoint⟩
  constructor
  case valid_subscribe =>
    intro a g hvalid
    rcases a.1.run_cases a.2 g with ⟨e, _, hsame⟩ | ⟨callback, _, _, hregister⟩
    . simp only [model, hsame]
      apply hvalid
    . simp only [model, hregister]
      apply Callbacks.valid_register (hinstalled g hvalid) rfl
  case valid_unsubscribe => exact fun t g hvalid => Callbacks.valid_unsubscribe hvalid t
  case lt_next =>
    intro g t hvalid hsome
    simp only [model, Option.isSome_map] at hsome
    rcases Callbacks.find_isSome_iff.mp hsome with ⟨map, hmem⟩
    apply (hvalid.keys map t hmem).right
  case installed_iff =>
    intro g hvalid
    simp only [model, Option.isSome_map, Callbacks.find_isSome_iff]
    rw [hvalid.installed_iff, exists_comm]
  case subscribe_ok =>
    intro a g t hvalid hok
    rcases a.1.run_cases a.2 g with ⟨e, herror, _⟩ | ⟨callback, hcallback, htoken, hregister⟩
    . simp only [model, herror] at hok
      cases hok
    . simp only [model, htoken, Except.ok.injEq] at hok
      refine ⟨hok.symm, ?_, ?_⟩
      . simp [model, hregister, Callbacks.register]
      . intro t'
        have hsub : a.1.subscription = (a.1.subscription.1, some callback) := by
          rw [← hcallback]
        simp only [model, hregister]
        rw [Callbacks.find_register (hinstalled g hvalid) rfl, ← hok, hsub]
        split <;> rfl
  case subscribe_error =>
    intro a g e _ herror
    rcases a.1.run_cases a.2 g with ⟨_, _, hsame⟩ | ⟨callback, _, htoken, _⟩
    . simp only [model, hsame, and_self]
    . simp only [model, htoken] at herror
      cases herror
  case unsubscribe_some =>
    intro t g hvalid hsome
    simp only [model, Option.isSome_map] at hsome
    rcases Callbacks.find_isSome_iff.mp hsome with ⟨map, hmem⟩
    have hremoved := Callbacks.unsubscribe_of_mem hvalid hmem
    refine ⟨?_, ?_, ?_⟩
    . simp [model, Globals.unsubscribe, hremoved, ok]
    . simp [model, Globals.unsubscribe, hremoved, Callbacks.without]
    . intro t'
      simp only [model, Globals.unsubscribe]
      rw [Callbacks.find_unsubscribe hvalid hmem]
      split <;> rfl
  case unsubscribe_none =>
    intro t g _ hnone
    simp only [model, Option.map_eq_none_iff] at hnone
    have hnot : ∀ map, t ∉ (g.callbacks map).keys := by
      intro map hmem
      have hsome := Callbacks.find_isSome_iff.mpr ⟨map, hmem⟩
      rw [hnone] at hsome
      cases hsome
    rcases Callbacks.unsubscribe_of_not_mem hnot with ⟨e, heq⟩
    refine ⟨⟨e, ?_⟩, ?_, ?_⟩
    . simp [model, Globals.unsubscribe, heq]
    . simp [model, Globals.unsubscribe, heq]
    . simp [model, Globals.unsubscribe, heq]

end Decompiler

/--
Along every run of calls outside of a dispatch, the three registries are in step with the SDK, and
no token is in two maps of the third. The first two never refuse a subscription, the third does so only
without a callback, without Hex-Rays, and where the bridge is not installed.
-/
theorem registries_inStep
    : (∀ calls, InStep (Events.model κ) (Subscriptions.run (Events.model κ) .initial calls)
          ∧ ∀ request, ∃ token, ((Events.model κ).subscribe request
            (Subscriptions.run (Events.model κ) .initial calls).registry).1 = .ok token)
      ∧ (∀ calls, InStep (Debugger.model κ) (Subscriptions.run (Debugger.model κ) .initial calls)
          ∧ ∀ request, ∃ token, ((Debugger.model κ).subscribe request
            (Subscriptions.run (Debugger.model κ) .initial calls).registry).1 = .ok token)
      ∧ (∀ calls, InStep (Decompiler.model κ) (Subscriptions.run (Decompiler.model κ) {} calls)
          ∧ (Subscriptions.run (Decompiler.model κ) {} calls).registry.toCallbacks.Distinct
          ∧ ∀ request answers, (∃ token, ((Decompiler.model κ).subscribe (request, answers)
              (Subscriptions.run (Decompiler.model κ) {} calls).registry).1 = .ok token)
            ↔ request.subscription.2.isSome
              ∧ ((Subscriptions.run (Decompiler.model κ) {} calls).registry.lifecycle.ensureHexrays
                answers.loaded).1 = ok
              ∧ ((Subscriptions.run (Decompiler.model κ) {} calls).registry.hexraysCallbackInstalled
                ∨ answers.installs)) := by
  refine ⟨?_, ?_, ?_⟩
  . intro calls
    refine ⟨Subscriptions.Kept.inStep Events.laws ?_, ?_⟩
    . apply Subscriptions.kept_run Events.laws Events.Globals.valid_initial
    . intro request
      simp only [Events.model, Events.Request.run_eq]
      exact ⟨_, rfl⟩
  . intro calls
    refine ⟨Subscriptions.Kept.inStep Debugger.laws ?_, fun request => ⟨_, rfl⟩⟩
    apply Subscriptions.kept_run Debugger.laws Listener.valid_initial
  . intro calls
    have hkept := Subscriptions.kept_run (Decompiler.laws (κ := κ)) (r := {})
      Decompiler.Callbacks.valid_initial calls
    refine ⟨hkept.inStep Decompiler.laws, hkept.valid.toDistinct, ?_⟩
    intro request answers
    apply request.run_ok_iff

end Idax
