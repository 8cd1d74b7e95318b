import Idax.Address
import Idax.Listeners.Listener

/-!
This module contains the debugger notifications and the handlers that the functions of
`ida::debugger` subscribe: which arguments each of them takes and what it makes of them for its
callback.
-/

namespace Idax
namespace Debugger

structure ModuleInfo where
  name : String
  base : Address
  size : Nat
  deriving DecidableEq, Repr

structure ExceptionInfo where
  ea : Address
  code : UInt32
  canContinue : Bool
  message : String
  deriving DecidableEq, Repr

inductive BreakpointChange where
  | added
  | removed
  | changed
  deriving DecidableEq, Repr

section Sdk

structure ModInfo where
  name : String
  base : Address
  size : Nat
  deriving DecidableEq, Repr

structure ExcInfo where
  code : UInt32
  canCont : Bool
  ea : Address
  info : String
  deriving DecidableEq, Repr

inductive EventInfo where
  | none
  | modinfo (mod : ModInfo)
  | exitCode (code : Int)
  | exc (exc : ExcInfo)
  | info (text : String)
  deriving DecidableEq, Repr

structure DebugEvent where
  ea : Address
  tid : Int
  info : EventInfo
  deriving DecidableEq, Repr

/--
The arguments of notifications: `thid_t` is `int`, and the `bpt_t` and `debug_event_t` that a
pointer is to are given themselves.
-/
inductive VaArg where
  | debugEvent (ev : DebugEvent)
  | int (n : Int)
  | ea (ea : Address)
  | bpt (ea : Address)
  | intPtr
  deriving DecidableEq, Repr

inductive NotificationCode where
  | processStart
  | processExit
  | suspendProcess
  | bpt
  | trace
  | exception
  | threadStart
  | threadExit
  | libraryLoad
  | libraryUnload
  | bptChanged
  | other (code : Int)
  deriving DecidableEq, Repr

inductive Notification where
  | processStart (ea : Address) (tid : Int) (mod : ModInfo)
  | processExit (ea : Address) (tid : Int) (exitCode : Int)
  | suspendProcess (ev : DebugEvent)
  | bpt (tid : Int) (bptea : Address)
  | trace (tid : Int) (ip : Address)
  | exception (ea : Address) (tid : Int) (exc : ExcInfo)
  | threadStart (ea : Address) (tid : Int) (info : String)
  | threadExit (ea : Address) (tid : Int) (exitCode : Int)
  | libraryLoad (ea : Address) (tid : Int) (mod : ModInfo)
  | libraryUnload (ea : Address) (tid : Int) (info : String)
  | bptChanged (bptev : Int) (bptea : Address)
  | other (code : Int) (args : List VaArg)

def Notification.code : Notification → NotificationCode
  | .processStart .. => .processStart
  | .processExit .. => .processExit
  | .suspendProcess .. => .suspendProcess
  | .bpt .. => .bpt
  | .trace .. => .trace
  | .exception .. => .exception
  | .threadStart .. => .threadStart
  | .threadExit .. => .threadExit
  | .libraryLoad .. => .libraryLoad
  | .libraryUnload .. => .libraryUnload
  | .bptChanged .. => .bptChanged
  | .other code _ => .other code

def Notification.args : Notification → List VaArg
  | .processStart ea tid mod => [.debugEvent ⟨ea, tid, .modinfo mod⟩]
  | .processExit ea tid exitCode => [.debugEvent ⟨ea, tid, .exitCode exitCode⟩]
  | .suspendProcess ev => [.debugEvent ev]
  | .bpt tid bptea => [.int tid, .ea bptea, .intPtr]
  | .trace tid ip => [.int tid, .ea ip]
  | .exception ea tid exc => [.debugEvent ⟨ea, tid, .exc exc⟩, .intPtr]
  | .threadStart ea tid info => [.debugEvent ⟨ea, tid, .info info⟩]
  | .threadExit ea tid exitCode => [.debugEvent ⟨ea, tid, .exitCode exitCode⟩]
  | .libraryLoad ea tid mod => [.debugEvent ⟨ea, tid, .modinfo mod⟩]
  | .libraryUnload ea tid info => [.debugEvent ⟨ea, tid, .info info⟩]
  | .bptChanged bptev bptea => [.int bptev, .bpt bptea]
  | .other _ args => args

def DebugEvent.modinfo (ev : DebugEvent) : Option ModInfo :=
  match ev.info with
  | .modinfo mod => some mod
  | _ => none

def DebugEvent.exitCode (ev : DebugEvent) : Option Int :=
  match ev.info with
  | .exitCode code => some code
  | _ => none

def DebugEvent.exc (ev : DebugEvent) : Option ExcInfo :=
  match ev.info with
  | .exc exc => some exc
  | _ => none

def DebugEvent.infoText (ev : DebugEvent) : Option String :=
  match ev.info with
  | .info text => some text
  | _ => none

def bptevAdded : Int := 0
def bptevRemoved : Int := 1
def bptevChanged : Int := 2

end Sdk

section Handlers

inductive Payload where
  | moduleInfo (mi : ModuleInfo)
  | exitCode (exitCode : Int)
  | address (ea : Address)
  | threadAddress (threadId : Int) (ea : Address)
  | exceptionInfo (ei : ExceptionInfo)
  | threadName (threadId : Int) (name : String)
  | threadExitCode (threadId exitCode : Int)
  | name (name : String)
  | breakpointChange (change : BreakpointChange) (ea : Address)
  deriving DecidableEq, Repr

namespace Payload

open VaList (arg)

def argDebugEvent : VaList.Reader VaArg DebugEvent :=
  arg fun
    | .debugEvent ev => some ev
    | _ => none

def argInt : VaList.Reader VaArg Int :=
  arg fun
    | .int n => some n
    | _ => none

def argEa : VaList.Reader VaArg Address :=
  arg fun
    | .ea ea => some ea
    | _ => none

def argBpt : VaList.Reader VaArg Address :=
  arg fun
    | .bpt ea => some ea
    | _ => none

def readModuleInfo : VaList.Reader VaArg Payload := do
  let ev ← argDebugEvent
  let mod ← ev.modinfo
  return .moduleInfo { name := mod.name, base := mod.base, size := mod.size }

def readProcessExited : VaList.Reader VaArg Payload := do
  let ev ← argDebugEvent
  return .exitCode (← ev.exitCode)

def readProcessSuspended : VaList.Reader VaArg Payload := do
  let ev ← argDebugEvent
  return .address ev.ea

def readThreadAddress : VaList.Reader VaArg Payload := do
  let tid ← argInt
  let ea ← argEa
  return .threadAddress tid ea

def readException : VaList.Reader VaArg Payload := do
  let ev ← argDebugEvent
  let exc ← ev.exc
  return .exceptionInfo {
    ea := exc.ea, code := exc.code, canContinue := exc.canCont, message := exc.info
  }

def readThreadStarted : VaList.Reader VaArg Payload := do
  let ev ← argDebugEvent
  return .threadName ev.tid (← ev.infoText)

def readThreadExited : VaList.Reader VaArg Payload := do
  let ev ← argDebugEvent
  return .threadExitCode ev.tid (← ev.exitCode)

def readLibraryUnloaded : VaList.Reader VaArg Payload := do
  let ev ← argDebugEvent
  return .name (← ev.infoText)

def toBreakpointChange (bptev : Int) : BreakpointChange :=
  if bptev = bptevAdded then .added
  else if bptev = bptevRemoved then .removed
  else if bptev = bptevChanged then .changed
  else .changed

def readBreakpointChanged : VaList.Reader VaArg Payload := do
  let bptev ← argInt
  let bptea ← argBpt
  return .breakpointChange (toBreakpointChange bptev) bptea

end Payload

inductive Hook where
  | processStarted
  | processExited
  | processSuspended
  | breakpointHit
  | trace
  | exception
  | threadStarted
  | threadExited
  | libraryLoaded
  | libraryUnloaded
  | breakpointChanged
  deriving DecidableEq, Repr

def Hook.code : Hook → NotificationCode
  | .processStarted => .processStart
  | .processExited => .processExit
  | .processSuspended => .suspendProcess
  | .breakpointHit => .bpt
  | .trace => .trace
  | .exception => .exception
  | .threadStarted => .threadStart
  | .threadExited => .threadExit
  | .libraryLoaded => .libraryLoad
  | .libraryUnloaded => .libraryUnload
  | .breakpointChanged => .bptChanged

def Hook.read : Hook → VaList.Reader VaArg Payload
  | .processStarted => Payload.readModuleInfo
  | .processExited => Payload.readProcessExited
  | .processSuspended => Payload.readProcessSuspended
  | .breakpointHit => Payload.readThreadAddress
  | .trace => Payload.readThreadAddress
  | .exception => Payload.readException
  | .threadStarted => Payload.readThreadStarted
  | .threadExited => Payload.readThreadExited
  | .libraryLoaded => Payload.readModuleInfo
  | .libraryUnloaded => Payload.readLibraryUnloaded
  | .breakpointChanged => Payload.readBreakpointChanged

structure Handler (κ : Type u) where
  hook : Hook
  callback : κ

def Handler.read (h : Handler κ) : VaList.Reader VaArg Payload :=
  h.hook.read

end Handlers

section Listener

structure DbgListener (κ : Type u) extends Listener NotificationCode (Handler κ) where
  code_eq : ∀ sub ∈ subs, sub.notificationCode = sub.handler.hook.code

namespace DbgListener

variable {κ : Type u}

def initial : DbgListener κ where
  toListener := {}
  code_eq := by simp

def subscribe (hook : Hook) (callback : κ) (l : DbgListener κ) : Result Nat × DbgListener κ :=
  let result := l.toListener.subscribe hook.code ⟨hook, callback⟩
  (.ok result.1, {
    toListener := result.2
    code_eq := by
      rcases l.toListener.subs_subscribe hook.code ⟨hook, callback⟩ with ⟨token, hsubs⟩
      intro sub hsub
      rw [hsubs] at hsub
      rcases List.mem_append.mp hsub with hold | hnew
      . apply l.code_eq sub hold
      . rw [List.mem_singleton.mp hnew]
  })

def onProcessStarted (callback : κ) : DbgListener κ → Result Nat × DbgListener κ :=
  subscribe .processStarted callback

def onProcessExited (callback : κ) : DbgListener κ → Result Nat × DbgListener κ :=
  subscribe .processExited callback

def onProcessSuspended (callback : κ) : DbgListener κ → Result Nat × DbgListener κ :=
  subscribe .processSuspended callback

def onBreakpointHit (callback : κ) : DbgListener κ → Result Nat × DbgListener κ :=
  subscribe .breakpointHit callback

def onTrace (callback : κ) : DbgListener κ → Result Nat × DbgListener κ :=
  subscribe .trace callback

def onException (callback : κ) : DbgListener κ → Result Nat × DbgListener κ :=
  subscribe .exception callback

def onThreadStarted (callback : κ) : DbgListener κ → Result Nat × DbgListener κ :=
  subscribe .threadStarted callback

def onThreadExited (callback : κ) : DbgListener κ → Result Nat × DbgListener κ :=
  subscribe .threadExited callback

def onLibraryLoaded (callback : κ) : DbgListener κ → Result Nat × DbgListener κ :=
  subscribe .libraryLoaded callback

def onLibraryUnloaded (callback : κ) : DbgListener κ → Result Nat × DbgListener κ :=
  subscribe .libraryUnloaded callback

def onBreakpointChanged (callback : κ) : DbgListener κ → Result Nat × DbgListener κ :=
  subscribe .breakpointChanged callback

def unsubscribe (token : Nat) (l : DbgListener κ) : Status × DbgListener κ :=
  let result := l.toListener.unsubscribe token
  (
    if !result.1 then .error (.notFound "Debugger subscription not found" (toString token)) else ok,
    {
      toListener := result.2
      code_eq := fun sub hsub => l.code_eq sub (Listener.mem_of_mem_unsubscribe hsub)
    }
  )

end DbgListener

end Listener

end Debugger
end Idax
