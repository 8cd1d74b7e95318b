import Idax.Finality
import Idax.Library.Contexts

/-!
This module contains the closures that Rust subscribes to the events of the debugger and of Hex-Rays.
The shim knows the address of their context, and `SUB_CONTEXTS` keeps it under the token that comes back.
-/

namespace Idax
namespace Rust

section Debugger

def debuggerCallbacks : Contexts.Model Error (Debugger.DbgListener Nat) (Debugger.Hook × Nat)
    (Debugger.NotificationCode × Debugger.Handler Nat)
    (Listener Debugger.NotificationCode (Debugger.Handler Nat)) Debugger.NotificationCode
    (Listener.Subscription Debugger.NotificationCode (Debugger.Handler Nat)) Int
    Debugger.Hook where
  registry := Debugger.model Nat
  request := fun hook raw => (hook, raw)
  matched := (Debugger.dispatcher Nat).matched
  token := (Debugger.dispatcher Nat).key
  context := fun sub => sub.handler.callback
  stops := (Debugger.dispatcher Nat).stops

def debuggerOwner : Debugger.NotificationCode × Debugger.Handler Nat → Option Nat :=
  fun sub => some sub.2.callback

theorem find_of_mem {l : Listener γ η} (hvalid : l.Valid) {sub : Listener.Subscription γ η}
    (hsub : sub ∈ l.subs) : l.find sub.token = some (sub.notificationCode, sub.handler) := by
  have hsome : (l.subs.find? (·.token = sub.token)).isSome := by
    rw [List.find?_isSome]
    exact ⟨sub, hsub, decide_eq_true rfl⟩
  rcases Option.isSome_iff_exists.mp hsome with ⟨sub', hfound⟩
  have hmem := List.mem_of_find?_eq_some hfound
  have htoken : sub'.token = sub.token := by simpa using List.find?_some hfound
  rw [Listener.find, hfound]
  have hnodup : (l.subs.map Listener.Subscription.token).Nodup := by
    rw [List.Nodup, List.pairwise_map]
    exact hvalid.ascending.imp Nat.ne_of_lt
  have heq : sub' = sub := List.inj_on_of_nodup_map hnodup hmem hsub htoken
  rw [heq]
  rfl

theorem debuggerLaws : Contexts.Laws debuggerCallbacks debuggerOwner (fun l => l.toListener.Valid)
    fun l => l.nextToken + 1 := by
  constructor
  case registry => exact Debugger.laws
  case core =>
    intro l l' hcore
    simp only [debuggerCallbacks, Debugger.model] at hcore ⊢
    rw [hcore]
  case owner_request => exact fun _ _ => rfl
  case matched =>
    intro code l hvalid sub hsub
    have hfind := find_of_mem hvalid (List.mem_of_mem_filter hsub)
    simp only [debuggerCallbacks, Debugger.model, Debugger.dispatcher, Snapshot.ofRegistry, hfind]
    rfl
  case stops => exact fun _ => ⟨0, rfl⟩

end Debugger

section Decompiler

structure OnEvent where
  map : Decompiler.CallbackMap
  answers : Decompiler.Globals.Answers

def OnEvent.request (on : OnEvent) (raw : Nat) : Decompiler.Request Nat :=
  match on.map with
  | .maturity => .onMaturityChanged (some raw)
  | .funcPrinted => .onFuncPrinted (some raw)
  | .refreshPseudocode => .onRefreshPseudocode (some raw)
  | .curpos => .onCurposChanged (some raw)
  | .createHint => .onCreateHint (some raw)
  | .populatingPopup => .onPopulatingPopup (some raw)

def decompilerCallbacks : Contexts.Model Error (Decompiler.Globals Nat)
    (Decompiler.Request Nat × Decompiler.Globals.Answers) (Decompiler.CallbackMap × Option Nat)
    (Decompiler.Callbacks Nat) (Decompiler.HexraysEvent Nat) (Nat × Nat) Decompiler.HintResult
    OnEvent where
  registry := Decompiler.model Nat
  request := fun on raw => (on.request raw, on.answers)
  matched := (Decompiler.dispatcher Nat).matched
  token := (Decompiler.dispatcher Nat).key
  context := Prod.snd
  stops := (Decompiler.dispatcher Nat).stops

theorem decompilerLaws : Contexts.Laws decompilerCallbacks Prod.snd (fun g => g.toCallbacks.Valid)
    fun g => g.nextToken := by
  constructor
  case registry => exact Decompiler.laws
  case core =>
    intro g g' hcore
    simp only [decompilerCallbacks, Decompiler.model] at hcore ⊢
    rw [hcore]
  case owner_request =>
    rintro ⟨map, answers⟩ raw
    cases map <;> rfl
  case matched =>
    rintro event g hvalid ⟨token, raw⟩ hentry
    have hmem : (token, raw) ∈ (g.callbacks event.map).entries := (event.order.perm _).subset hentry
    have hfind : g.find token = some (event.map, raw) := by
      rw [Decompiler.Callbacks.find_eq_some_iff hvalid.toDistinct]
      exact OrderedMap.find?_of_mem hmem
    simp only [decompilerCallbacks, Decompiler.model, Decompiler.dispatcher, Snapshot.ofRegistry, hfind]
    rfl
  case stops =>
    intro event
    refine ⟨{}, ?_⟩
    simp [decompilerCallbacks, Decompiler.dispatcher, Snapshot.ofRegistry]

end Decompiler

/--
In every run of subscriptions, events and unsubscriptions from Rust, the contexts that are live are those
of the closures that are subscribed, and no closure is run whose context has been dropped exactly when
none is unsubscribed that waits in a dispatch or runs there, be it by itself.
-/
theorem callbacks_safe
    : (∀ actions, (Machine.Always (Contexts.step debuggerCallbacks) (Contexts.Safe debuggerCallbacks)
            (some ({ registry := .initial }, {})) actions
          ↔ Machine.Guarded (Contexts.step debuggerCallbacks) (Contexts.KeepsBusy debuggerCallbacks)
            (some ({ registry := .initial }, {})) actions)
        ∧ ∀ s h, Machine.run (Contexts.step debuggerCallbacks) (some ({ registry := .initial }, {})) actions
            = some (s, h) → Contexts.Accounted debuggerCallbacks debuggerOwner s h)
      ∧ ∀ actions, (Machine.Always (Contexts.step decompilerCallbacks) (Contexts.Safe decompilerCallbacks)
            (some ({ registry := {} }, {})) actions
          ↔ Machine.Guarded (Contexts.step decompilerCallbacks) (Contexts.KeepsBusy decompilerCallbacks)
            (some ({ registry := {} }, {})) actions)
        ∧ ∀ s h, Machine.run (Contexts.step decompilerCallbacks) (some ({ registry := {} }, {})) actions
            = some (s, h) → Contexts.Accounted decompilerCallbacks Prod.snd s h := by
  constructor
  . exact Contexts.safe_run debuggerLaws Listener.valid_initial fun _ => rfl
  . exact Contexts.safe_run decompilerLaws Decompiler.Callbacks.valid_initial fun _ => rfl

-- A closure that unsubscribes itself is still running on its context.
example
    : (Machine.run (Contexts.step decompilerCallbacks) (some ({ registry := {} }, {}))
        [.subscribe ⟨.curpos, true, true⟩, .notify { map := .curpos }, .next 0 {}, .unsubscribe 1,
          .next 0 {}]).isNone := by
  rfl

end Rust
end Idax
