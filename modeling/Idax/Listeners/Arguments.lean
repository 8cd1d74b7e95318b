import Idax.Listeners.Debugger

/-!
What the handlers of a debugger notification get to read. Every handler takes some of the arguments
and none of them can be read off what another one of the same notification has left, so the shared
`va_list` serves one handler only.
-/

namespace Idax
namespace Debugger

section Read

def Notification.spare : Notification → List VaArg
  | .bpt .. => [.intPtr]
  | .exception .. => [.intPtr]
  | _ => []

def Notification.payload : Notification → Option Payload
  | .processStart _ _ mod => some (.moduleInfo ⟨mod.name, mod.base, mod.size⟩)
  | .processExit _ _ exitCode => some (.exitCode exitCode)
  | .suspendProcess ev => some (.address ev.ea)
  | .bpt tid bptea => some (.threadAddress tid bptea)
  | .trace tid ip => some (.threadAddress tid ip)
  | .exception _ _ exc => some (.exceptionInfo ⟨exc.ea, exc.code, exc.canCont, exc.info⟩)
  | .threadStart _ tid info => some (.threadName tid info)
  | .threadExit _ tid exitCode => some (.threadExitCode tid exitCode)
  | .libraryLoad _ _ mod => some (.moduleInfo ⟨mod.name, mod.base, mod.size⟩)
  | .libraryUnload _ _ info => some (.name info)
  | .bptChanged bptev bptea => some (.breakpointChange (Payload.toBreakpointChange bptev) bptea)
  | .other _ _ => none

theorem Hook.read_args {hook : Hook} {n : Notification} (h : n.code = hook.code)
    : ∃ payload, n.payload = some payload ∧ hook.read n.args = some (payload, n.spare) := by
  -- Only the pairs with one code are left, and in each of them the reader computes.
  cases hook <;> cases n <;> first
    | exact ⟨_, rfl, rfl⟩
    | cases h

theorem Hook.read_spare (hook : Hook) (n : Notification) : hook.read n.spare = none := by
  cases hook <;> cases n <;> rfl

end Read

section OnEvent

structure Callbacks (κ : Type u) (σ : Type v) where
  call : κ → Payload → σ → Bool × σ

structure Run (κ : Type u) (σ : Type v) where
  world : σ
  calls : List (κ × Payload)

variable {κ : Type u} {σ : Type v} (cb : Callbacks κ σ)

def Handler.invoke (h : Handler κ) (payload : Payload) (run : Run κ σ) : Int × Run κ σ :=
  let (suppress, world) := cb.call h.callback payload run.world
  (
    if h.hook = .trace ∧ suppress then 1 else 0,
    { world := world, calls := run.calls ++ [(h.callback, payload)] }
  )

def DbgListener.onEvent (l : DbgListener κ) (n : Notification) (world : σ)
    : Option (Int × Run κ σ) :=
  l.dbgOnEvent Handler.read (Handler.invoke cb) n.code n.args { world := world, calls := [] }

def DbgListener.ReadsOwnArguments (l : DbgListener κ) (n : Notification) (world : σ) : Prop :=
  ∃ result run payloads, l.onEvent cb n world = some (result, run)
    ∧ VaList.Received Handler.read n.args (l.matched n.code) payloads
    ∧ run.calls = ((l.matched n.code).map Handler.callback).zip payloads

namespace DbgListener

theorem hook_code_of_mem_matched {l : DbgListener κ} {code : NotificationCode} {h : Handler κ}
    (hmem : h ∈ l.matched code) : code = h.hook.code := by
  rcases Listener.mem_matched hmem with ⟨sub, hsub, hcode, heq⟩
  rw [← hcode, ← heq]
  apply l.code_eq sub hsub

theorem read_of_mem_matched {l : DbgListener κ} {n : Notification} {h : Handler κ}
    (hmem : h ∈ l.matched n.code)
    : ∃ payload, n.payload = some payload ∧ h.read n.args = some (payload, n.spare) :=
  Hook.read_args (hook_code_of_mem_matched hmem)

theorem onEvent_eq_none {l : DbgListener κ} {n : Notification} {h h' : Handler κ}
    {rest : List (Handler κ)} (hmatched : l.matched n.code = h :: h' :: rest) (world : σ)
    : l.onEvent cb n world = none := by
  have hfirst : h ∈ l.matched n.code := by
    rw [hmatched]
    apply List.mem_cons_self
  rcases read_of_mem_matched hfirst with ⟨payload, _, hread⟩
  unfold onEvent Listener.dbgOnEvent
  rw [hmatched]
  apply VaList.passShared_eq_none hread
  apply Hook.read_spare

theorem calls_fold {hs : List (Handler κ)} {payloads : List Payload}
    (hlen : hs.length = payloads.length) (acc : Int × Run κ σ)
    : (VaList.fold (Listener.keepResult (Handler.invoke cb)) hs payloads acc).2.calls
      = acc.2.calls ++ (hs.map Handler.callback).zip payloads := by
  induction hs generalizing payloads acc with
  | nil => simp [VaList.fold]
  | cons h hs ih =>
    cases payloads with
    | nil => simp at hlen
    | cons payload payloads =>
      simp only [List.length_cons, Nat.add_right_cancel_iff] at hlen
      have hrest := ih hlen (Listener.keepResult (Handler.invoke cb) h payload acc)
      simp only [VaList.fold, List.zip_cons_cons, List.foldl_cons, List.map_cons] at hrest ⊢
      rw [hrest]
      simp [Listener.keepResult, Handler.invoke]

/--
One handler has the cursor to itself, and the second one finds nothing it could read.
-/
theorem readsOwnArguments_iff (l : DbgListener κ) (n : Notification) (world : σ)
    : l.ReadsOwnArguments cb n world ↔ (l.matched n.code).length ≤ 1 := by
  constructor
  . intro ⟨result, run, _, hrun, _⟩
    match hmatched : l.matched n.code with
    | [] => simp
    | [h] => simp
    | h :: h' :: rest =>
      rw [onEvent_eq_none cb hmatched] at hrun
      cases hrun
  . intro hlen
    have hread : ∀ h ∈ l.matched n.code, ∃ p, h.read n.args = some p := by
      intro h hmem
      rcases read_of_mem_matched hmem with ⟨payload, _, hread⟩
      exact ⟨_, hread⟩
    rcases VaList.exists_received hread with ⟨payloads, hpayloads⟩
    have hcopies : VaList.passCopies Handler.read (Listener.keepResult (Handler.invoke cb))
        (l.matched n.code) n.args (0, { world := world, calls := [] })
          = some (VaList.fold (Listener.keepResult (Handler.invoke cb)) (l.matched n.code) payloads
              (0, { world := world, calls := [] })) :=
      VaList.passCopies_eq_some_iff.mpr ⟨payloads, hpayloads, rfl⟩
    rw [← VaList.passShared_eq_passCopies hlen] at hcopies
    refine ⟨_, _, payloads, hcopies, hpayloads, ?_⟩
    apply calls_fold cb hpayloads.length_eq

end DbgListener

section TwoHandlers

def twoBreakpointHandlers : DbgListener Nat :=
  (DbgListener.onBreakpointHit 1 (DbgListener.onBreakpointHit 0 .initial).2).2

theorem not_readsOwnArguments_twoBreakpointHandlers
    : ¬ twoBreakpointHandlers.ReadsOwnArguments ⟨fun _ _ s => (false, s)⟩ (.bpt 7 4198400) () := by
  intro ⟨_, _, _, hrun, _⟩
  have hnone : twoBreakpointHandlers.onEvent ⟨fun _ _ s => (false, s)⟩ (.bpt 7 4198400) () = none :=
    rfl
  rw [hnone] at hrun
  cases hrun

end TwoHandlers

end OnEvent

end Debugger
end Idax
