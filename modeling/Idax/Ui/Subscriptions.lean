import Idax.Library.OrderedMap
import Idax.Listeners.Listener
import Idax.Ui.Widget

/-!
The subscriptions of `ida::ui`. There is one listener for the notifications of the user interface
and one for those of the views, and a subscription to all events is a route to subscriptions of
both. What a token is for is told from the range it lies in.
-/

namespace Idax
namespace Ui

inductive UiNotification where
  | databaseInited
  | databaseClosed
  | readyToRun
  | screenEaChanged
  | currentWidgetChanged
  | widgetVisible
  | widgetInvisible
  | widgetClosing
  | finishPopulatingWidgetPopup
  | getLinesRenderingInfo
  | other (code : Int)
  deriving DecidableEq, Repr

inductive ViewNotification where
  | curpos
  | activated
  | deactivated
  | created
  | close
  | other (code : Int)
  deriving DecidableEq, Repr

inductive EventKind where
  | databaseInited
  | databaseClosed
  | readyToRun
  | currentWidgetChanged
  | screenAddressChanged
  | widgetVisible
  | widgetInvisible
  | widgetClosing
  | viewActivated
  | viewDeactivated
  | viewCreated
  | viewClosed
  | cursorChanged
  deriving DecidableEq, Repr

section Handlers

inductive EventCallback (κ φ : Type) where
  | plain (callback : κ)
  | filtered (filter : φ) (callback : κ)
  deriving DecidableEq, Repr

/--
The closures that the functions below subscribe. `none` is an empty `std::function`.
-/
inductive UiHandler (κ φ : Type) where
  | databaseClosed (callback : Option κ)
  | databaseInited (callback : Option κ)
  | readyToRun (callback : Option κ)
  | screenEaChanged (callback : Option κ)
  | currentWidgetChanged (callback : Option κ)
  | widgetTitle (callback : Option κ)
  | widget (target : TWidget) (wid : Nat) (callback : Option κ)
  | popupReady (callback : κ)
  | renderingInfo (callback : κ)
  | event (kind : EventKind) (callback : EventCallback κ φ)
  deriving DecidableEq, Repr

inductive ViewHandler (κ φ : Type) where
  | cursorChanged (callback : Option κ)
  | view (callback : Option κ)
  | event (kind : EventKind) (callback : EventCallback κ φ)
  deriving DecidableEq, Repr

end Handlers

def viewTokenBase : Nat :=
  1 <<< 62

def genericTokenBase : Nat :=
  1 <<< 63

/--
`genericRoutes` is only looked up by token, so an ordered map does for the unordered one.
-/
structure State (κ φ : Type) where
  ui : Listener UiNotification (UiHandler κ φ) := {}
  view : Listener ViewNotification (ViewHandler κ φ) := {}
  genericRoutes : OrderedMap Nat (List Nat) := .empty
  nextGenericToken : Nat := 0

namespace State

variable {κ φ : Type}

section Subscribe

def subscribeUi (code : UiNotification) (handler : UiHandler κ φ) (s : State κ φ)
    : Result Nat × State κ φ :=
  let (token, ui) := s.ui.subscribe code handler
  (.ok token, { s with ui := ui })

def subscribeView (code : ViewNotification) (handler : ViewHandler κ φ) (s : State κ φ)
    : Result Nat × State κ φ :=
  let (rawToken, view) := s.view.subscribe code handler
  (.ok (rawToken + viewTokenBase), { s with view := view })

def onDatabaseClosed (callback : Option κ) : State κ φ → Result Nat × State κ φ :=
  subscribeUi .databaseClosed (.databaseClosed callback)

def onDatabaseInited (callback : Option κ) : State κ φ → Result Nat × State κ φ :=
  subscribeUi .databaseInited (.databaseInited callback)

def onReadyToRun (callback : Option κ) : State κ φ → Result Nat × State κ φ :=
  subscribeUi .readyToRun (.readyToRun callback)

def onScreenEaChanged (callback : Option κ) : State κ φ → Result Nat × State κ φ :=
  subscribeUi .screenEaChanged (.screenEaChanged callback)

def onCurrentWidgetChanged (callback : Option κ) : State κ φ → Result Nat × State κ φ :=
  subscribeUi .currentWidgetChanged (.currentWidgetChanged callback)

def onWidgetVisible (callback : Option κ) : State κ φ → Result Nat × State κ φ :=
  subscribeUi .widgetVisible (.widgetTitle callback)

def onWidgetInvisible (callback : Option κ) : State κ φ → Result Nat × State κ φ :=
  subscribeUi .widgetInvisible (.widgetTitle callback)

def onWidgetClosing (callback : Option κ) : State κ φ → Result Nat × State κ φ :=
  subscribeUi .widgetClosing (.widgetTitle callback)

def subscribeWidget (code : UiNotification) (widget : Widget) (callback : Option κ)
    (s : State κ φ) : Result Nat × State κ φ :=
  match WidgetAccess.raw widget with
  | none => (.error (.validation "Widget handle is invalid"), s)
  | some target => subscribeUi code (.widget target widget.id callback) s

def onWidgetVisibleOf (widget : Widget) (callback : Option κ)
    : State κ φ → Result Nat × State κ φ :=
  subscribeWidget .widgetVisible widget callback

def onWidgetInvisibleOf (widget : Widget) (callback : Option κ)
    : State κ φ → Result Nat × State κ φ :=
  subscribeWidget .widgetInvisible widget callback

def onWidgetClosingOf (widget : Widget) (callback : Option κ)
    : State κ φ → Result Nat × State κ φ :=
  subscribeWidget .widgetClosing widget callback

def onCursorChanged (callback : Option κ) : State κ φ → Result Nat × State κ φ :=
  subscribeView .curpos (.cursorChanged callback)

def onViewActivated (callback : Option κ) : State κ φ → Result Nat × State κ φ :=
  subscribeView .activated (.view callback)

def onViewDeactivated (callback : Option κ) : State κ φ → Result Nat × State κ φ :=
  subscribeView .deactivated (.view callback)

def onViewCreated (callback : Option κ) : State κ φ → Result Nat × State κ φ :=
  subscribeView .created (.view callback)

def onViewClosed (callback : Option κ) : State κ φ → Result Nat × State κ φ :=
  subscribeView .close (.view callback)

def onPopupReady (callback : Option κ) (s : State κ φ) : Result Nat × State κ φ :=
  match callback with
  | none => (.error (.validation "Popup callback is empty"), s)
  | some callback => subscribeUi .finishPopulatingWidgetPopup (.popupReady callback) s

def onRenderingInfo (callback : Option κ) (s : State κ φ) : Result Nat × State κ φ :=
  match callback with
  | none => (.error (.validation "Rendering callback is empty"), s)
  | some callback => subscribeUi .getLinesRenderingInfo (.renderingInfo callback) s

end Subscribe

section OnEvent

def uiEvents : List (UiNotification × EventKind) :=
  [
    (.databaseInited, .databaseInited),
    (.databaseClosed, .databaseClosed),
    (.readyToRun, .readyToRun),
    (.screenEaChanged, .screenAddressChanged),
    (.currentWidgetChanged, .currentWidgetChanged),
    (.widgetVisible, .widgetVisible),
    (.widgetInvisible, .widgetInvisible),
    (.widgetClosing, .widgetClosing)
  ]

def viewEvents : List (ViewNotification × EventKind) :=
  [
    (.curpos, .cursorChanged),
    (.activated, .viewActivated),
    (.deactivated, .viewDeactivated),
    (.created, .viewCreated),
    (.close, .viewClosed)
  ]

def eventUiHandlers (callback : EventCallback κ φ) : List (UiNotification × UiHandler κ φ) :=
  uiEvents.map fun e => (e.1, .event e.2 callback)

def eventViewHandlers (callback : EventCallback κ φ) : List (ViewNotification × ViewHandler κ φ) :=
  viewEvents.map fun e => (e.1, .event e.2 callback)

def makeGenericToken (s : State κ φ) : Nat × State κ φ :=
  let nextGenericToken := s.nextGenericToken + 1
  (genericTokenBase + nextGenericToken, { s with nextGenericToken := nextGenericToken })

def onEvent (callback : Option (EventCallback κ φ)) (s : State κ φ) : Result Nat × State κ φ :=
  match callback with
  | none => (.error (.validation "Event callback is empty"), s)
  | some callback =>
    let (uiTokens, ui) := s.ui.subscribeAll (eventUiHandlers callback)
    let (viewTokens, view) := s.view.subscribeAll (eventViewHandlers callback)
    let innerTokens := uiTokens ++ viewTokens.map (· + viewTokenBase)
    let (outerToken, s) := makeGenericToken { s with ui := ui, view := view }
    (.ok outerToken, { s with genericRoutes := s.genericRoutes.emplace outerToken innerTokens })

def onEventFiltered (filter : Option φ) (callback : Option κ) (s : State κ φ)
    : Result Nat × State κ φ :=
  match filter, callback with
  | none, _ => (.error (.validation "Event filter is empty"), s)
  | some _, none => (.error (.validation "Event callback is empty"), s)
  | some filter, some callback => onEvent (some (.filtered filter callback)) s

end OnEvent

section Unsubscribe

def unsubscribeSingle (token : Nat) (s : State κ φ) : Bool × State κ φ :=
  if token ≥ viewTokenBase ∧ token < genericTokenBase then
    let (removed, view) := s.view.unsubscribe (token - viewTokenBase)
    (removed, { s with view := view })
  else
    let (removed, ui) := s.ui.unsubscribe token
    (removed, { s with ui := ui })

def unsubscribe (token : Nat) (s : State κ φ) : Status × State κ φ :=
  if token = 0 then
    (.error (.validation "Invalid subscription token (0)"), s)
  else if token ≥ genericTokenBase then
    match s.genericRoutes.find? token with
    | none => (.error (.notFound "UI/view subscription not found" (toString token)), s)
    | some innerTokens =>
      let s := { s with genericRoutes := s.genericRoutes.erase token }
      (ok, innerTokens.foldl (fun s inner => (s.unsubscribeSingle inner).2) s)
  else
    let (removed, s) := s.unsubscribeSingle token
    if !removed then
      (.error (.notFound "UI/view subscription not found" (toString token)), s)
    else
      (ok, s)

end Unsubscribe

end State

end Ui
end Idax
