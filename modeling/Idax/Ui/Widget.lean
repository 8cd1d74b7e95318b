import Mathlib.Logic.Basic

/-!
The handles of `ida::ui` to the widgets of the SDK.
-/

namespace Idax
namespace Ui

abbrev TWidget := Nat

structure Widget where
  impl : Option TWidget := none
  id : Nat := 0
  deriving DecidableEq, Repr

namespace Widget

def valid (w : Widget) : Bool :=
  w.impl.isSome

end Widget

namespace WidgetAccess

/--
`nextId` is `g_next_widget_id`, here and in `wrap`. The source counts in 64 bits; the ids do not run out.
-/
def make (tw : TWidget) (nextId : Nat) : Widget × Nat :=
  ({ impl := some tw, id := nextId }, nextId + 1)

def wrap (tw : Option TWidget) (existingId : Nat) (nextId : Nat) : Widget × Nat :=
  match tw with
  | none => ({}, nextId)
  | some tw =>
    if existingId ≠ 0 then
      ({ impl := some tw, id := existingId }, nextId)
    else
      ({ impl := some tw, id := nextId }, nextId + 1)

def raw (w : Widget) : Option TWidget :=
  w.impl

end WidgetAccess

end Ui
end Idax
