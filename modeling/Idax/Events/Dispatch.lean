import Idax.Events.Registry
import Idax.Library.LiveLoop

/-!
This module contains the dispatch of an IDB event to the subscriptions. The callbacks and filters
that it calls may subscribe and unsubscribe, so they are scripts of such calls, and both loops of
the dispatch go over the map as the callbacks leave it.
-/

namespace Idax
namespace Events

section Callbacks

inductive Request (κ : Type u) where
  | onSegmentAdded (callback : Option κ)
  | onSegmentDeleted (callback : Option κ)
  | onFunctionAdded (callback : Option κ)
  | onFunctionDeleted (callback : Option κ)
  | onRenamed (callback : Option κ)
  | onBytePatched (callback : Option κ)
  | onCommentChanged (callback : Option κ)
  | onEvent (callback : Option κ)
  | onEventFiltered (filter callback : Option κ)

variable {κ : Type u}

def Request.run : Request κ → Globals κ → Result Nat × Globals κ
  | .onSegmentAdded callback => Globals.onSegmentAdded callback
  | .onSegmentDeleted callback => Globals.onSegmentDeleted callback
  | .onFunctionAdded callback => Globals.onFunctionAdded callback
  | .onFunctionDeleted callback => Globals.onFunctionDeleted callback
  | .onRenamed callback => Globals.onRenamed callback
  | .onBytePatched callback => Globals.onBytePatched callback
  | .onCommentChanged callback => Globals.onCommentChanged callback
  | .onEvent callback => Globals.onEvent callback
  | .onEventFiltered filter callback => Globals.onEventFiltered filter callback

theorem Request.exists_run_eq (request : Request κ)
    : ∃ sub, request.run = Globals.subscribe sub := by
  cases request <;> exact ⟨_, rfl⟩

theorem Request.valid_run (request : Request κ) (g : Globals κ) (h : g.Valid)
    : (request.run g).2.Valid := by
  rcases request.exists_run_eq with ⟨sub, hrun⟩
  rw [hrun]
  apply Globals.valid_subscribe sub g h

def Registry.request (request : Request κ) (r : Registry κ) : Result Nat × Registry κ :=
  let result := request.run r.toGlobals
  (result.1, ⟨result.2, request.valid_run r.toGlobals r.valid⟩)

inductive Script (κ : Type u) (α : Type v) where
  | done (result : α)
  | request (call : Request κ) (next : Result Nat → Script κ α)
  | unsubscribe (token : Nat) (next : Status → Script κ α)

def Script.run : Script κ α → Registry κ → α × Registry κ
  | .done result, r => (result, r)
  | .request call next, r => (next (r.request call).1).run (r.request call).2
  | .unsubscribe token next, r => (next (r.unsubscribe token).1).run (r.unsubscribe token).2

inductive Args where
  | addr (ea : Address)
  | addr2 (start stop : Address)
  | renamed (ea : Address) (newName oldName : String)
  | patched (ea : Address) (oldValue : UInt32)
  | comment (ea : Address) (repeatable : Bool)
  | event (event : Event)
  deriving DecidableEq, Repr

structure Callbacks (κ : Type u) (σ : Type v) where
  handler : κ → Args → σ → Script κ σ
  filter : κ → Event → σ → Script κ (Bool × σ)

end Callbacks

section State

inductive Call (κ : Type u) where
  | handler (token : Nat) (callback : κ) (args : Args)
  | filter (token : Nat) (callback : κ) (event : Event)
  deriving DecidableEq, Repr

def Call.token : Call κ → Nat
  | .handler token _ _ => token
  | .filter token _ _ => token

structure DispatchState (κ : Type u) (σ : Type v) where
  world : σ
  registry : Registry κ
  calls : List (Call κ)

namespace DispatchState

variable {κ : Type u} {σ : Type v} (cb : Callbacks κ σ)

def tokens (s : DispatchState κ σ) : List Nat :=
  s.registry.tokens

def callHandler (token : Nat) (callback : κ) (args : Args) (s : DispatchState κ σ)
    : DispatchState κ σ :=
  let result := (cb.handler callback args s.world).run s.registry
  { world := result.1, registry := result.2, calls := s.calls ++ [.handler token callback args] }

def callFilter (token : Nat) (callback : κ) (event : Event) (s : DispatchState κ σ)
    : Bool × DispatchState κ σ :=
  let result := (cb.filter callback event s.world).run s.registry
  (result.1.1, {
    world := result.1.2,
    registry := result.2,
    calls := s.calls ++ [.filter token callback event]
  })

end DispatchState

end State

section Notification

/--
The notifications of `IDB_Callbacks` with their arguments. Names may be null pointers.
-/
inductive Notification where
  | segmAdded (startEa : Address)
  | segmDeleted (startEa endEa : Address)
  | funcAdded (startEa : Address)
  | funcDeleted (ea : Address)
  | renamed (ea : Address) (newName : Option String) (isLocal : Bool) (oldName : Option String)
  | bytePatched (ea : Address) (oldValue : UInt32)
  | cmtChanged (ea : Address) (repeatable : Bool)
  | other (code : Int)

structure Route (κ : Type u) where
  kind : CallbackKind
  slot : Subscription κ → Option κ
  args : Args
  event : Event

variable {κ : Type u}

def Notification.route : Notification → Option (Route κ)
  | .segmAdded start => some {
      kind := .segmentAdded
      slot := Subscription.onAddr
      args := .addr start
      event := { kind := .segmentAdded, address := start }
    }
  | .segmDeleted start stop => some {
      kind := .segmentDeleted
      slot := Subscription.onAddr2
      args := .addr2 start stop
      event := { kind := .segmentDeleted, address := start, secondaryAddress := stop }
    }
  | .funcAdded entry => some {
      kind := .functionAdded
      slot := Subscription.onAddr
      args := .addr entry
      event := { kind := .functionAdded, address := entry }
    }
  | .funcDeleted entry => some {
      kind := .functionDeleted
      slot := Subscription.onAddr
      args := .addr entry
      event := { kind := .functionDeleted, address := entry }
    }
  | .renamed ea newn _ oldn => some {
      kind := .renamed
      slot := Subscription.onRenamed
      args := .renamed ea (newn.getD "") (oldn.getD "")
      event := {
        kind := .renamed, address := ea, newName := newn.getD "", oldName := oldn.getD ""
      }
    }
  | .bytePatched ea oldv => some {
      kind := .bytePatched
      slot := Subscription.onPatched
      args := .patched ea oldv
      event := { kind := .bytePatched, address := ea, oldValue := oldv }
    }
  | .cmtChanged ea repeatable => some {
      kind := .commentChanged
      slot := Subscription.onComment
      args := .comment ea repeatable
      event := { kind := .commentChanged, address := ea, repeatable := repeatable }
    }
  | .other _ => none

def Route.target (route : Route κ) (sub : Subscription κ) : Option κ :=
  if sub.kind = route.kind then route.slot sub else none

def Subscription.genericTarget (sub : Subscription κ) : Option κ :=
  if sub.kind = .generic then sub.onEvent else none

end Notification

section Dispatch

open DispatchState

variable {κ : Type u} {σ : Type v} (cb : Callbacks κ σ)

def typedVisit (route : Route κ) (t : Nat) (s : DispatchState κ σ)
    : Option (DispatchState κ σ) :=
  match s.registry.subscriptions.find? t with
  | none => none
  | some sub =>
    match route.target sub with
    | none => some s
    | some callback => some (callHandler cb t callback route.args s)

def genericVisit (event : Event) (t : Nat) (s : DispatchState κ σ)
    : Option (DispatchState κ σ) :=
  match s.registry.subscriptions.find? t with
  | none => none
  | some sub =>
    match sub.genericTarget with
    | none => some s
    | some callback =>
      match sub.filter with
      | none => some (callHandler cb t callback (.event event) s)
      | some filter =>
        let result := callFilter cb t filter event s
        if !result.1 then
          some result.2
        -- `sub` is a reference into the map, and `sub.on_event` is read after the filter ran.
        else if t ∈ result.2.tokens then
          some (callHandler cb t callback (.event event) result.2)
        else
          none

def dispatchLoop (visit : Nat → DispatchState κ σ → Option (DispatchState κ σ)) (fuel : Nat)
    (s : DispatchState κ σ) : LiveLoop.Outcome (DispatchState κ σ) :=
  LiveLoop.loop tokens visit fuel (LiveLoop.seek tokens s 0) s

def dispatchGeneric (fuel : Nat) (event : Event) (s : DispatchState κ σ)
    : LiveLoop.Outcome (DispatchState κ σ) :=
  dispatchLoop (genericVisit cb event) fuel s

def dispatch (fuel : Nat) (route : Route κ) (s : DispatchState κ σ)
    : LiveLoop.Outcome (DispatchState κ σ) :=
  match dispatchLoop (typedVisit cb route) fuel s with
  | .done s => dispatchGeneric cb fuel route.event s
  | out => out

def onEvent (fuel : Nat) (notification : Notification) (s : DispatchState κ σ)
    : LiveLoop.Outcome (DispatchState κ σ) :=
  match notification.route with
  | some route => dispatch cb fuel route s
  | none => .done s

end Dispatch

section Delivery

/-!
What the dispatch is for: each subscription that is there when the event arrives has its turn, as a
typed one and then as a generic one, unless it is gone by then.
-/

open DispatchState

variable {κ : Type u} {σ : Type v} (cb : Callbacks κ σ)

def typedTurn (route : Route κ) (t : Nat) (s : DispatchState κ σ) : DispatchState κ σ :=
  match (s.registry.subscriptions.find? t).bind route.target with
  | none => s
  | some callback => callHandler cb t callback route.args s

def genericTurn (event : Event) (t : Nat) (s : DispatchState κ σ) : DispatchState κ σ :=
  match s.registry.subscriptions.find? t with
  | none => s
  | some sub =>
    match sub.genericTarget with
    | none => s
    | some callback =>
      match sub.filter with
      | none => callHandler cb t callback (.event event) s
      | some filter =>
        let result := callFilter cb t filter event s
        if result.1 then callHandler cb t callback (.event event) result.2 else result.2

def deliverTyped (route : Route κ) (s : DispatchState κ σ) : DispatchState κ σ :=
  LiveLoop.sweep tokens (typedTurn cb route) s.tokens s

def deliver (route : Route κ) (s : DispatchState κ σ) : DispatchState κ σ :=
  LiveLoop.sweep tokens (genericTurn cb route.event) s.tokens (deliverTyped cb route s)

end Delivery

end Events
end Idax
