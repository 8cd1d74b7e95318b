import Idax.Error
import Idax.Library.Guards

/-!
When `ida::decompiler` holds the Hex-Rays plugin: the flag that a query leaves, the count of the
scoped sessions, and the sessions themselves as guards.
-/

namespace Idax
namespace Decompiler

inductive PluginCall where
  | init
  | term
  deriving DecidableEq, Repr

structure Lifecycle where
  hexraysInitialized : Bool := false
  scopedSessionCount : Nat := 0
  pluginCalls : List PluginCall := []
  deriving DecidableEq, Repr

namespace Lifecycle

def hexraysReady (l : Lifecycle) : Bool :=
  l.hexraysInitialized || l.scopedSessionCount > 0

def initHexraysPlugin (loaded : Bool) (l : Lifecycle) : Bool × Lifecycle :=
  if loaded then
    (true, { l with pluginCalls := l.pluginCalls ++ [.init] })
  else
    (false, l)

def termHexraysPlugin (l : Lifecycle) : Lifecycle :=
  { l with pluginCalls := l.pluginCalls ++ [.term] }

def releaseScopedHexraysSession (l : Lifecycle) : Status × Lifecycle :=
  if l.scopedSessionCount = 0 then
    (.error (.conflict "Hex-Rays scoped session is not active"), l)
  else
    let l := { l with scopedSessionCount := l.scopedSessionCount - 1 }
    if l.scopedSessionCount = 0 then
      (ok, l.termHexraysPlugin)
    else
      (ok, l)

def available (loaded : Bool) (l : Lifecycle) : Result Bool × Lifecycle :=
  if l.hexraysReady then
    (.ok true, l)
  else
    let (initialized, l) := l.initHexraysPlugin loaded
    if initialized then
      (.ok true, { l with hexraysInitialized := true })
    else
      (.ok false, l)

def ensureHexrays (loaded : Bool) (l : Lifecycle) : Status × Lifecycle :=
  if l.hexraysReady then
    (ok, l)
  else
    let (initialized, l) := l.initHexraysPlugin loaded
    if initialized then
      (ok, { l with hexraysInitialized := true })
    else
      (.error (.unsupported "Decompiler not available (Hex-Rays plugin not loaded)"), l)

end Lifecycle

section ScopedSession

/--
`active_` says that there is a session. The number tells the sessions apart, which the code need
not do.
-/
structure ScopedSession where
  session : Option Nat := none
  deriving DecidableEq, Repr

namespace ScopedSession

def active (this : ScopedSession) : Bool :=
  this.session.isSome

def releaseNoexcept (this : ScopedSession) (l : Lifecycle) : ScopedSession × Lifecycle :=
  if !this.active then
    (this, l)
  else
    ({ session := none }, l.releaseScopedHexraysSession.2)

def close (this : ScopedSession) (l : Lifecycle) : Status × ScopedSession × Lifecycle :=
  if !this.active then
    (.error (.conflict "Hex-Rays scoped session is already closed"), this, l)
  else
    let (status, l) := l.releaseScopedHexraysSession
    (status, { session := none }, l)

def moveConstruct (other : ScopedSession) : ScopedSession × ScopedSession :=
  ({ session := other.session }, { session := none })

def moveAssign (this other : ScopedSession) (l : Lifecycle)
    : ScopedSession × ScopedSession × Lifecycle :=
  let (_, l) := this.releaseNoexcept l
  ({ session := other.session }, { session := none }, l)

def selfAssign (this : ScopedSession) (l : Lifecycle) : ScopedSession × Lifecycle :=
  (this, l)

def destroy (this : ScopedSession) (l : Lifecycle) : Lifecycle :=
  (this.releaseNoexcept l).2

theorem releaseNoexcept_eq (this : ScopedSession) (l : Lifecycle)
    : (this.releaseNoexcept l).2
      = this.session.elim l fun _ => l.releaseScopedHexraysSession.2 := by
  unfold releaseNoexcept active
  cases this.session <;> rfl

def guard : Guards.GuardClass ScopedSession Lifecycle Nat where
  owns := session
  release := fun _ l => l.releaseScopedHexraysSession.2
  empty := {}
  moveConstruct := moveConstruct
  moveAssign := moveAssign
  selfAssign := selfAssign
  close := some fun this l => (this.close l).2
  destroy := destroy
  owns_empty := rfl
  owns_moveConstruct := fun _ => ⟨rfl, rfl⟩
  moveAssign_eq := fun this _ l => ⟨rfl, rfl, this.releaseNoexcept_eq l⟩
  selfAssign_eq := fun _ _ => ⟨rfl, rfl⟩
  close_eq := by
    intro f hf this l
    cases hf
    unfold close active
    rcases this with ⟨session⟩
    cases session <;> exact ⟨rfl, rfl⟩
  destroy_eq := releaseNoexcept_eq

end ScopedSession

def initializeSession (loaded : Bool) (session : Nat) (l : Lifecycle)
    : Result ScopedSession × Lifecycle :=
  let (initialized, l) := l.initHexraysPlugin loaded
  if !initialized then
    (.error (.unsupported "Decompiler not available (Hex-Rays plugin not loaded)"), l)
  else
    (
      .ok { session := some session },
      { l with scopedSessionCount := l.scopedSessionCount + 1 }
    )

end ScopedSession

end Decompiler
end Idax
