import Idax.Registries
import Idax.Ui.Removal

/-!
When unsubscribing is final. The dispatchers of `ida::debugger`, `ida::ui` and `ida::decompiler` copy
the handlers that match before they call the first of them, so a handler that is unsubscribed while it
waits in such a copy is called all the same.
-/

namespace Idax

variable {κ : Type u}

namespace Debugger

def dispatcher (κ : Type u) : Snapshot.Model (DbgListener κ) (Subscriptions.Call (Hook × κ))
    NotificationCode (Listener.Subscription NotificationCode (Handler κ)) Nat Int :=
  Snapshot.ofRegistry (model κ) (fun code l => l.subs.filter (·.notificationCode = code))
    Listener.Subscription.token (fun _ _ => false)

theorem dispatcher_laws
    : Snapshot.Laws (dispatcher κ) (fun l => l.toListener.Valid) (fun _ _ => True)
        (Subscriptions.Spent (model κ) fun l => l.nextToken + 1) := by
  apply Snapshot.laws_ofRegistry laws
  . intro l l' hcore
    simp only [model] at hcore ⊢
    rw [hcore]
  . intro code l _ sub hsub
    apply Listener.find_isSome_iff.mpr
    exact ⟨sub, List.mem_of_mem_filter hsub, rfl⟩

end Debugger

namespace Decompiler

/--
The order in which an `unordered_map` is gone over, of which nothing is known.
-/
structure IterationOrder (κ : Type u) where
  arrange : List (Nat × κ) → List (Nat × κ)
  perm : ∀ entries, (arrange entries).Perm entries

def IterationOrder.ascending : IterationOrder κ where
  arrange := id
  perm := List.Perm.refl

/--
An event is for the callbacks of one map. `hint` says whether the event of `hxe_create_hint` comes
with a string to put the hint in.
-/
structure HexraysEvent (κ : Type u) where
  map : CallbackMap
  hint : Bool := false
  order : IterationOrder κ := .ascending

structure HintResult where
  text : String := ""
  lines : Int := 0
  deriving DecidableEq, Repr

/--
`hexrays_event_bridge`. The first hint that is not empty is the last one that is asked for; the
callbacks of the other maps return nothing.
-/
def dispatcher (κ : Type u) : Snapshot.Model (Globals κ)
    (Subscriptions.Call (Request κ × Globals.Answers)) (HexraysEvent κ) (Nat × κ) Nat HintResult :=
  Snapshot.ofRegistry (model κ) (fun event g => event.order.arrange (g.callbacks event.map).entries)
    Prod.fst (fun event result => event.map = .createHint && result.text ≠ "" && event.hint)

theorem dispatcher_laws
    : Snapshot.Laws (dispatcher κ) (fun g => g.toCallbacks.Valid) (fun _ _ => True)
        (Subscriptions.Spent (model κ) fun g => g.nextToken) := by
  apply Snapshot.laws_ofRegistry laws
  . intro g g' hcore
    simp only [model] at hcore ⊢
    rw [hcore]
  . intro event g _ entry hentry
    simp only [model, Option.isSome_map]
    apply Callbacks.find_isSome_iff.mpr
    refine ⟨event.map, ?_⟩
    apply List.mem_map_of_mem
    apply (event.order.perm _).subset hentry

end Decompiler

section Final

open Snapshot (Settles KeepsWaiting Allowed)

/--
In a run of each of the three registries no handler is called after `unsubscribe` has released it,
nor when the dispatches go on to their ends, exactly when no `unsubscribe` releases a handler that
waits in a dispatch.
-/
theorem unsubscribe_final_iff {φ κ' : Type}
    : (∀ actions, Machine.Always (Snapshot.step (Debugger.dispatcher κ))
          (Settles (Debugger.dispatcher κ)) { registry := .initial } actions
        ↔ Machine.Guarded (Snapshot.step (Debugger.dispatcher κ))
          (KeepsWaiting (Debugger.dispatcher κ)) { registry := .initial } actions)
      ∧ (∀ actions, Machine.Always (Snapshot.step (Decompiler.dispatcher κ))
          (Settles (Decompiler.dispatcher κ)) { registry := {} } actions
        ↔ Machine.Guarded (Snapshot.step (Decompiler.dispatcher κ))
          (KeepsWaiting (Decompiler.dispatcher κ)) { registry := {} } actions)
      ∧ (∀ actions, Machine.Guarded (Snapshot.step (Ui.dispatcher κ' φ))
          (Allowed Ui.History.BelowBase) { registry := {} } actions →
        (Machine.Always (Snapshot.step (Ui.dispatcher κ' φ))
            (Settles (Ui.dispatcher κ' φ)) { registry := {} } actions
          ↔ Machine.Guarded (Snapshot.step (Ui.dispatcher κ' φ))
            (KeepsWaiting (Ui.dispatcher κ' φ)) { registry := {} } actions)) := by
  refine ⟨?_, ?_, ?_⟩
  . intro actions
    apply Snapshot.always_settles_iff Debugger.dispatcher_laws
    . exact fun _ => ⟨0, rfl⟩
    . apply Listener.valid_initial
    . apply Snapshot.guarded_allowed
  . intro actions
    apply Snapshot.always_settles_iff Decompiler.dispatcher_laws
    . intro event
      refine ⟨{}, ?_⟩
      simp [Decompiler.dispatcher, Snapshot.ofRegistry]
    . apply Decompiler.Callbacks.valid_initial
    . apply Snapshot.guarded_allowed
  . intro actions hbelow
    apply Snapshot.always_settles_iff Ui.dispatcher_laws
    . exact fun _ => ⟨(), rfl⟩
    . apply Ui.History.registered_initial
    . apply hbelow

theorem not_final_secondHandler
    : ¬ Snapshot.Final (Machine.run (Snapshot.step (Debugger.dispatcher Nat))
        { registry := .initial }
        [.call (.subscribe (.processExited, 0)), .call (.subscribe (.processExited, 1)),
          .notify .processExit, .next 0 0, .call (.unsubscribe 2), .next 0 0])
      ∧ ¬ Snapshot.Final (Machine.run (Snapshot.step (Decompiler.dispatcher Nat))
        { registry := {} }
        [.call (.subscribe (.onCurposChanged (some 0), ⟨true, true⟩)),
          .call (.subscribe (.onCurposChanged (some 1), ⟨true, true⟩)),
          .notify { map := .curpos }, .next 0 {}, .call (.unsubscribe 2), .next 0 {}])
      ∧ ¬ Snapshot.Final (Machine.run (Snapshot.step (Ui.dispatcher Nat Nat))
        { registry := {} }
        [.call (.onReadyToRun (some 0)), .call (.onReadyToRun (some 1)),
          .notify (.ui .readyToRun), .next 0 (), .call (.unsubscribe 2), .next 0 ()]) := by
  refine ⟨?_, ?_, ?_⟩
  . apply Snapshot.not_final_of_log 1 2 rfl
  . apply Snapshot.not_final_of_log 1 2 rfl
  . apply Snapshot.not_final_of_log (Ui.SubscriptionKey.ui 1) (Ui.SubscriptionKey.ui 2) rfl

end Final

end Idax
