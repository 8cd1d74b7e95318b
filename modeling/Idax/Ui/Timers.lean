import Idax.Error
import Mathlib.Logic.Function.Basic

/-!
This module contains the timers of `ida::ui`. A token is the address of the state that was allocated for
the timer, which the vector of the library, the SDK and the caller know of.
-/

namespace Idax
namespace Ui

structure TimerState where
  /-- There is a function to be called. -/
  callback : Bool
  timer : UInt64 := 0
  deriving DecidableEq, Repr

/--
A timer in the kernel. The serial number tells two timers apart that had one handle after another.
-/
structure SdkTimer where
  serial : Nat
  handle : UInt64
  ud : UInt64
  deriving DecidableEq, Repr

/--
`heap` has the states that are allocated, `live` the timers of the kernel, and `running` those whose
callbacks are under way, the innermost first.
-/
structure Timers where
  heap : UInt64 → Option TimerState := fun _ => none
  gTimers : List UInt64 := []
  live : List SdkTimer := []
  nextSerial : Nat := 0
  running : List SdkTimer := []

inductive TimerFault where
  | freedState
  | destroyedHandle
  deriving DecidableEq, Repr

namespace Timers

variable (s : Timers)

section Sdk

def sdkRegister (handle ud : UInt64) : Timers :=
  { s with
    live := { serial := s.nextSerial, handle, ud } :: s.live
    nextSerial := s.nextSerial + 1 }

/--
`unregister_timer` of the SDK. There is no result for a handle of a timer that is gone.
-/
def sdkUnregister (handle : UInt64) : Option (Bool × Timers) :=
  if s.live.any (·.handle == handle) then
    some (true, { s with live := s.live.filter (·.handle != handle) })
  else
    none

def sdkDestroy (timer : SdkTimer) : Timers :=
  { s with live := s.live.filter (·.serial != timer.serial) }

end Sdk

def setState (address : UInt64) (state : Option TimerState) : Timers :=
  { s with heap := Function.update s.heap address state }

/--
`state` is where the new state was allocated, and `handle` what the SDK returns.
-/
def registerTimer (callback : Bool) (state handle : UInt64) : Result UInt64 × Timers :=
  let s := s.setState state (some { callback })
  if handle = 0 then
    (.error (.sdk "register_timer failed"), s.setState state none)
  else
    let s := (s.sdkRegister handle state).setState state (some { callback, timer := handle })
    (.ok state, { s with gTimers := s.gTimers ++ [state] })

def unregisterTimer (token : UInt64) : Except TimerFault (Status × Timers) :=
  if token = 0 then
    .ok (.error (.validation "Invalid timer token"), s)
  else
    match s.heap token with
    | none => .error .freedState
    | some state =>
      if state.timer = 0 then
        .ok (.error (.validation "Invalid timer token"), s)
      else
        match s.sdkUnregister state.timer with
        | none => .error .destroyedHandle
        | some (false, s) => .ok (.error (.sdk "unregister_timer failed"), s)
        | some (true, s) =>
          let s := { s with gTimers := s.gTimers.filter (· != token) }
          .ok (ok, s.setState token none)

def enterCallback (timer : SdkTimer) : Except TimerFault Timers :=
  match s.heap timer.ud with
  | none => .error .freedState
  | some state =>
    if state.callback then
      .ok { s with running := timer :: s.running }
    else
      .ok (s.sdkDestroy timer)

/--
The innermost callback returns, to the kernel, which ends the timer for a negative value.
-/
def leaveCallback (ret : Int) : Timers :=
  match s.running with
  | [] => s
  | timer :: running =>
    let s := { s with running }
    if ret < 0 then s.sdkDestroy timer else s

end Timers

end Ui
end Idax
