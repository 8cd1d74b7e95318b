import Idax.Library.Machine
import Idax.Ui.Subscriptions

/-!
The calls of the subscription functions of `ida::ui`, and what a run of them leaves behind besides
the state: which tokens were returned, with the subscriptions each of them was returned for, and
which of them were then released.
-/

namespace Idax
namespace Ui

variable {κ φ : Type}

section Call

inductive Call (κ φ : Type) where
  | onDatabaseClosed (callback : Option κ)
  | onDatabaseInited (callback : Option κ)
  | onReadyToRun (callback : Option κ)
  | onScreenEaChanged (callback : Option κ)
  | onCurrentWidgetChanged (callback : Option κ)
  | onWidgetVisible (callback : Option κ)
  | onWidgetInvisible (callback : Option κ)
  | onWidgetClosing (callback : Option κ)
  | onWidgetVisibleOf (widget : Widget) (callback : Option κ)
  | onWidgetInvisibleOf (widget : Widget) (callback : Option κ)
  | onWidgetClosingOf (widget : Widget) (callback : Option κ)
  | onCursorChanged (callback : Option κ)
  | onViewActivated (callback : Option κ)
  | onViewDeactivated (callback : Option κ)
  | onViewCreated (callback : Option κ)
  | onViewClosed (callback : Option κ)
  | onPopupReady (callback : Option κ)
  | onRenderingInfo (callback : Option κ)
  | onEvent (callback : Option κ)
  | onEventFiltered (filter : Option φ) (callback : Option κ)
  | unsubscribe (token : Nat)
  deriving DecidableEq, Repr

def subscribed (r : Result Nat × State κ φ) : Result (Option Nat) × State κ φ :=
  (r.1.map some, r.2)

def unsubscribed (r : Status × State κ φ) : Result (Option Nat) × State κ φ :=
  (r.1.map fun _ => none, r.2)

def Call.perform (s : State κ φ) : Call κ φ → Result (Option Nat) × State κ φ
  | .onDatabaseClosed callback => subscribed (s.onDatabaseClosed callback)
  | .onDatabaseInited callback => subscribed (s.onDatabaseInited callback)
  | .onReadyToRun callback => subscribed (s.onReadyToRun callback)
  | .onScreenEaChanged callback => subscribed (s.onScreenEaChanged callback)
  | .onCurrentWidgetChanged callback => subscribed (s.onCurrentWidgetChanged callback)
  | .onWidgetVisible callback => subscribed (s.onWidgetVisible callback)
  | .onWidgetInvisible callback => subscribed (s.onWidgetInvisible callback)
  | .onWidgetClosing callback => subscribed (s.onWidgetClosing callback)
  | .onWidgetVisibleOf widget callback => subscribed (s.onWidgetVisibleOf widget callback)
  | .onWidgetInvisibleOf widget callback => subscribed (s.onWidgetInvisibleOf widget callback)
  | .onWidgetClosingOf widget callback => subscribed (s.onWidgetClosingOf widget callback)
  | .onCursorChanged callback => subscribed (s.onCursorChanged callback)
  | .onViewActivated callback => subscribed (s.onViewActivated callback)
  | .onViewDeactivated callback => subscribed (s.onViewDeactivated callback)
  | .onViewCreated callback => subscribed (s.onViewCreated callback)
  | .onViewClosed callback => subscribed (s.onViewClosed callback)
  | .onPopupReady callback => subscribed (s.onPopupReady callback)
  | .onRenderingInfo callback => subscribed (s.onRenderingInfo callback)
  | .onEvent callback => subscribed (s.onEvent (callback.map .plain))
  | .onEventFiltered filter callback => subscribed (s.onEventFiltered filter callback)
  | .unsubscribe token => unsubscribed (s.unsubscribe token)

def Call.handlers : Call κ φ
    → Option (List (UiNotification × UiHandler κ φ) × List (ViewNotification × ViewHandler κ φ))
  | .onDatabaseClosed callback => some ([(.databaseClosed, .databaseClosed callback)], [])
  | .onDatabaseInited callback => some ([(.databaseInited, .databaseInited callback)], [])
  | .onReadyToRun callback => some ([(.readyToRun, .readyToRun callback)], [])
  | .onScreenEaChanged callback => some ([(.screenEaChanged, .screenEaChanged callback)], [])
  | .onCurrentWidgetChanged callback =>
    some ([(.currentWidgetChanged, .currentWidgetChanged callback)], [])
  | .onWidgetVisible callback => some ([(.widgetVisible, .widgetTitle callback)], [])
  | .onWidgetInvisible callback => some ([(.widgetInvisible, .widgetTitle callback)], [])
  | .onWidgetClosing callback => some ([(.widgetClosing, .widgetTitle callback)], [])
  | .onWidgetVisibleOf widget callback =>
    widget.impl.map fun target => ([(.widgetVisible, .widget target widget.id callback)], [])
  | .onWidgetInvisibleOf widget callback =>
    widget.impl.map fun target => ([(.widgetInvisible, .widget target widget.id callback)], [])
  | .onWidgetClosingOf widget callback =>
    widget.impl.map fun target => ([(.widgetClosing, .widget target widget.id callback)], [])
  | .onCursorChanged callback => some ([], [(.curpos, .cursorChanged callback)])
  | .onViewActivated callback => some ([], [(.activated, .view callback)])
  | .onViewDeactivated callback => some ([], [(.deactivated, .view callback)])
  | .onViewCreated callback => some ([], [(.created, .view callback)])
  | .onViewClosed callback => some ([], [(.close, .view callback)])
  | .onPopupReady callback =>
    callback.map fun callback => ([(.finishPopulatingWidgetPopup, .popupReady callback)], [])
  | .onRenderingInfo callback =>
    callback.map fun callback => ([(.getLinesRenderingInfo, .renderingInfo callback)], [])
  | .onEvent callback =>
    callback.map fun callback =>
      (State.eventUiHandlers (.plain callback), State.eventViewHandlers (.plain callback))
  | .onEventFiltered filter callback =>
    filter.bind fun filter => callback.map fun callback =>
      (
        State.eventUiHandlers (.filtered filter callback),
        State.eventViewHandlers (.filtered filter callback)
      )
  | .unsubscribe _ => none

def Call.generic : Call κ φ → Bool
  | .onEvent _ => true
  | .onEventFiltered _ _ => true
  | _ => false

end Call

section History

structure Grant (κ φ : Type) where
  token : Nat
  call : Call κ φ
  ui : List (Listener.Subscription UiNotification (UiHandler κ φ))
  view : List (Listener.Subscription ViewNotification (ViewHandler κ φ))

structure History (κ φ : Type) where
  state : State κ φ := {}
  grants : List (Grant κ φ) := []
  released : List Nat := []

namespace History

def step (h : History κ φ) (call : Call κ φ) : History κ φ :=
  let (result, s) := call.perform h.state
  match result, call with
  | .ok (some token), _ =>
    let grant := {
      token := token
      call := call
      ui := s.ui.subs.drop h.state.ui.subs.length
      view := s.view.subs.drop h.state.view.subs.length
    }
    { h with state := s, grants := h.grants ++ [grant] }
  | .ok none, .unsubscribe token => { h with state := s, released := h.released ++ [token] }
  | _, _ => { h with state := s }

def run (calls : List (Call κ φ)) : History κ φ :=
  Machine.run step {} calls

def returned (h : History κ φ) : List Nat :=
  h.grants.map Grant.token

def live (h : History κ φ) : List (Grant κ φ) :=
  h.grants.filter (·.token ∉ h.released)

def Returned (h : History κ φ) : Call κ φ → Prop
  | .unsubscribe token => token ∈ h.returned
  | _ => True

def KnownTokens (calls : List (Call κ φ)) : Prop :=
  Machine.Guarded step Returned {} calls

end History

end History

end Ui
end Idax
