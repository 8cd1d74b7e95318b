import Mathlib.Algebra.Group.Nat.Defs
import Idax.Library.Machine
import Idax.Ui.History

/-!
Where `ida::ui` makes handles to widgets: on creation, on lookup by title and in the closures that
pass the widgets of a notification on. The widgets that the SDK has open, and all handles that were
made to them, are the state of a run.
-/

namespace Idax
namespace Ui

/--
A widget of the SDK. The number tells it from the widgets that had the same address before.
-/
structure SdkWidget where
  address : TWidget
  serial : Nat
  deriving DecidableEq, Repr

section Handles

def createWidget (title : String) (tw : Option TWidget) (nextId : Nat) : Result Widget × Nat :=
  match tw with
  | none => (.error (.sdk "create_empty_widget failed" title), nextId)
  | some tw =>
    let (w, nextId) := WidgetAccess.make tw nextId
    (.ok w, nextId)

def makeCustomViewerState (lines : List String) : Status :=
  if lines.length > 2 ^ 31 - 1 then
    .error (.validation "Too many lines for custom viewer" (toString lines.length))
  else
    ok

def createCustomViewer (title : String) (lines : List String) (tw : Option TWidget) (nextId : Nat)
    : Result Widget × Nat :=
  if title.isEmpty then
    (.error (.validation "Viewer title cannot be empty"), nextId)
  else
    match makeCustomViewerState lines with
    | .error e => (.error e, nextId)
    | .ok _ =>
      match tw with
      | none => (.error (.sdk "create_custom_viewer failed" title), nextId)
      | some tw =>
        let (w, nextId) := WidgetAccess.make tw nextId
        (.ok w, nextId)

def findWidget (tw : Option TWidget) (nextId : Nat) : Widget × Nat :=
  match tw with
  | none => ({}, nextId)
  | some tw => WidgetAccess.make tw nextId

structure Wrapping where
  widget : Option SdkWidget
  existingId : Nat := 0
  deriving DecidableEq, Repr

variable {κ φ : Type}

/--
The handles that the closures make of the widgets they are given. `previous` is the second argument
of `ui_current_widget_changed`.
-/
def UiHandler.wrappings (widget previous : Option SdkWidget) : UiHandler κ φ → List Wrapping
  | .currentWidgetChanged _ => [{ widget }, { widget := previous }]
  | .widget target wid _ =>
    if widget.map SdkWidget.address = some target then [{ widget, existingId := wid }] else []
  | .popupReady _ => [{ widget }]
  | .renderingInfo _ => if widget.isSome then [{ widget }] else []
  | .event .currentWidgetChanged _ => [{ widget }, { widget := previous }]
  | .event .widgetVisible _ => [{ widget }]
  | .event .widgetInvisible _ => [{ widget }]
  | .event .widgetClosing _ => [{ widget }]
  | _ => []

def ViewHandler.wrappings (view : Option SdkWidget) : ViewHandler κ φ → List Wrapping
  | .view _ => [{ widget := view }]
  | .event .viewActivated _ => [{ widget := view }]
  | .event .viewDeactivated _ => [{ widget := view }]
  | .event .viewCreated _ => [{ widget := view }]
  | .event .viewClosed _ => [{ widget := view }]
  | _ => []

end Handles

section World

/--
The widgets that were opened and those that were closed again, the handles that were made, each with
its widget, and the subscriptions.
-/
structure World (κ φ : Type) where
  opened : List SdkWidget := []
  closed : List SdkWidget := []
  nextId : Nat := 1
  handles : List (SdkWidget × Widget) := []
  history : History κ φ := {}

/--
What can happen next. A notification comes to one handler after the other, and their callbacks may
do anything in between.
-/
inductive WidgetAction (κ φ : Type) where
  | opens (address : TWidget)
  | closes (widget : SdkWidget)
  | createWidget (title : String) (tw : Option SdkWidget)
  | createCustomViewer (title : String) (lines : List String) (tw : Option SdkWidget)
  | findWidget (tw : Option SdkWidget)
  | call (call : Call κ φ)
  | ui (code : UiNotification) (handler : UiHandler κ φ) (widget previous : Option SdkWidget)
  | view (code : ViewNotification) (handler : ViewHandler κ φ) (view : Option SdkWidget)

namespace World

variable {κ φ : Type}

def Live (s : World κ φ) (w : SdkWidget) : Prop :=
  w ∈ s.opened ∧ w ∉ s.closed

def record (s : World κ φ) (tw : Option SdkWidget) (r : Widget × Nat) : World κ φ :=
  match tw with
  | none => { s with nextId := r.2 }
  | some w => { s with nextId := r.2, handles := s.handles ++ [(w, r.1)] }

def recordResult (s : World κ φ) (tw : Option SdkWidget) (r : Result Widget × Nat) : World κ φ :=
  match r.1 with
  | .ok h => s.record tw (h, r.2)
  | .error _ => { s with nextId := r.2 }

def wrap (s : World κ φ) (x : Wrapping) : World κ φ :=
  s.record x.widget (WidgetAccess.wrap (x.widget.map SdkWidget.address) x.existingId s.nextId)

def step (s : World κ φ) : WidgetAction κ φ → World κ φ
  | .opens address => { s with opened := s.opened ++ [⟨address, s.opened.length⟩] }
  | .closes widget => { s with closed := widget :: s.closed }
  | .createWidget title tw =>
    s.recordResult tw (createWidget title (tw.map SdkWidget.address) s.nextId)
  | .createCustomViewer title lines tw =>
    s.recordResult tw (createCustomViewer title lines (tw.map SdkWidget.address) s.nextId)
  | .findWidget tw => s.record tw (findWidget (tw.map SdkWidget.address) s.nextId)
  | .call call => { s with history := s.history.step call }
  | .ui _ handler widget previous => Machine.run wrap s (handler.wrappings widget previous)
  | .view _ handler view => Machine.run wrap s (handler.wrappings view)

end World

end World

end Ui
end Idax
