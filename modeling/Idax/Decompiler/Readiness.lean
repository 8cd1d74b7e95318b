import Idax.Decompiler.Lifecycle
import Idax.Library.Machine

/-!
When the answer that the plugin is there can be trusted. The flag that a query leaves is never taken
back, so the last session must not be closed after it was set: the plugin is terminated then, and
every later answer still says that it is there.
-/

namespace Idax
namespace Decompiler

inductive LifecycleOp where
  | available (loaded : Bool)
  | guarded (loaded : Bool)
  | openSession (loaded : Bool)
  | session (op : Guards.Op)
  deriving DecidableEq, Repr

abbrev SessionProgram :=
  Guards.Program ScopedSession Lifecycle Nat

namespace SessionProgram

def initial : SessionProgram where
  system := {}

def step (p : SessionProgram) : LifecycleOp → SessionProgram
  | .available loaded => { p with system := (p.system.available loaded).2 }
  | .guarded loaded => { p with system := (p.system.ensureHexrays loaded).2 }
  | .openSession loaded =>
    match initializeSession loaded p.acquired.length p.system with
    | (.ok session, l) => Guards.adopt ScopedSession.guard session l p
    | (.error _, l) => { p with system := l }
  | .session op => Guards.step ScopedSession.guard p op

end SessionProgram

section Property

/--
The most recent successful call of the two is one of `init_hexrays_plugin`.
-/
def Lifecycle.Up (l : Lifecycle) : Prop :=
  l.pluginCalls.getLast? = some .init

structure SessionProgram.Sound (p : SessionProgram) : Prop where
  ensure : ∀ loaded, (p.system.ensureHexrays loaded).1 = ok →
    (p.system.ensureHexrays loaded).2.Up
  available : ∀ loaded, (p.system.available loaded).1 = .ok true →
    (p.system.available loaded).2.Up
  term : p.system.pluginCalls.getLast? = some .term →
    ∀ session, some session ∈ p.objects → session.active = false

/--
The one thing not to do: to release the last session after the flag was set.
-/
def SessionProgram.KeepsPlugin (p : SessionProgram) : LifecycleOp → Prop
  | .session op =>
    ¬ (p.system.hexraysInitialized = true ∧ p.system.scopedSessionCount = 1
      ∧ (Guards.releasedBy ScopedSession.guard p op).isSome)
  | _ => True

end Property

section Invariant

theorem Lifecycle.ensureHexrays_of_available {l : Lifecycle} {loaded : Bool}
    (hok : (l.available loaded).1 = .ok true)
    : (l.ensureHexrays loaded).1 = ok ∧ (l.ensureHexrays loaded).2 = (l.available loaded).2 := by
  unfold available at hok ⊢
  unfold ensureHexrays
  split
  . exact ⟨rfl, rfl⟩
  . next hready =>
    rw [if_neg hready] at hok
    cases loaded with
    | false => cases hok
    | true => exact ⟨rfl, rfl⟩

namespace SessionProgram

structure Inv (p : SessionProgram) : Prop where
  count : p.system.scopedSessionCount = (Guards.held ScopedSession.guard p).length
  up : 0 < p.system.scopedSessionCount → p.system.Up

theorem sound_iff {p : SessionProgram} (hinv : p.Inv)
    : p.Sound ↔ (p.system.hexraysReady = true → p.system.Up) := by
  constructor
  . intro hsound hready
    have hensure := hsound.ensure true
    simp only [Lifecycle.ensureHexrays, hready, if_true, true_implies] at hensure
    apply hensure
  . intro hready
    have hensure : ∀ loaded, (p.system.ensureHexrays loaded).1 = ok →
        (p.system.ensureHexrays loaded).2.Up := by
      intro loaded hok
      unfold Lifecycle.ensureHexrays at hok ⊢
      split
      . next h => apply hready h
      . next h =>
        rw [if_neg h] at hok
        cases loaded with
        | false => cases hok
        | true => simp [Lifecycle.initHexraysPlugin, Lifecycle.Up]
    constructor
    case ensure => apply hensure
    case available =>
      intro loaded hok
      rcases Lifecycle.ensureHexrays_of_available hok with ⟨hensured, heq⟩
      rw [← heq]
      apply hensure loaded hensured
    case term =>
      intro hterm session hmem
      -- An active session is counted, and while one is counted the plugin is up.
      by_contra hactive
      simp only [Bool.not_eq_false, ScopedSession.active] at hactive
      rcases Option.isSome_iff_exists.mp hactive with ⟨n, hn⟩
      have hheld : n ∈ Guards.held ScopedSession.guard p := by
        apply List.mem_flatMap.mpr ⟨some session, hmem, ?_⟩
        simp [Guards.owned, ScopedSession.guard, hn]
      have hcount : 0 < p.system.scopedSessionCount := by
        rw [hinv.count]
        apply List.length_pos_of_mem hheld
      have hup := hinv.up hcount
      unfold Lifecycle.Up at hup
      rw [hterm] at hup
      cases hup

theorem releaseScopedHexraysSession_eq {l : Lifecycle} {n : Nat} (h : l.scopedSessionCount = n + 1)
    : l.releaseScopedHexraysSession.2 = { l with
        scopedSessionCount := n
        pluginCalls := if n = 0 then l.pluginCalls ++ [.term] else l.pluginCalls
      } := by
  unfold Lifecycle.releaseScopedHexraysSession Lifecycle.termHexraysPlugin
  cases n with
  | zero => simp [h]
  | succ n => simp [h]

theorem available_cases (loaded : Bool) (l : Lifecycle)
    : (l.available loaded).2 = l
      ∨ (l.available loaded).2 = { l with
          hexraysInitialized := true
          pluginCalls := l.pluginCalls ++ [.init]
        } := by
  unfold Lifecycle.available Lifecycle.initHexraysPlugin
  split
  . apply Or.inl rfl
  . cases loaded with
    | false => apply Or.inl rfl
    | true => apply Or.inr rfl

theorem ensureHexrays_eq (loaded : Bool) (l : Lifecycle)
    : (l.ensureHexrays loaded).2 = (l.available loaded).2 := by
  unfold Lifecycle.available Lifecycle.ensureHexrays Lifecycle.initHexraysPlugin
  split
  . rfl
  . cases loaded <;> rfl

theorem inv_available {p : SessionProgram} (hinv : p.Inv) (loaded : Bool)
    : Inv { p with system := (p.system.available loaded).2 } := by
  rcases available_cases loaded p.system with heq | heq
  . rw [heq]
    apply hinv
  . rw [heq]
    exact ⟨hinv.count, fun _ => by simp [Lifecycle.Up]⟩

theorem session_cases {p : SessionProgram} (hinv : p.Inv) (op : Guards.Op)
    : (Guards.releasedBy ScopedSession.guard p op = none
        ∧ (Guards.step ScopedSession.guard p op).system = p.system
        ∧ (Guards.held ScopedSession.guard (Guards.step ScopedSession.guard p op)).length
          = (Guards.held ScopedSession.guard p).length)
      ∨ ∃ n session, Guards.releasedBy ScopedSession.guard p op = some session
        ∧ p.system.scopedSessionCount = n + 1
        ∧ (Guards.step ScopedSession.guard p op).system = { p.system with
            scopedSessionCount := n
            pluginCalls :=
              if n = 0 then p.system.pluginCalls ++ [.term] else p.system.pluginCalls
          }
        ∧ (Guards.held ScopedSession.guard (Guards.step ScopedSession.guard p op)).length = n := by
  have hreleases := Guards.releases_step (c := ScopedSession.guard) p op
  have hlength := hreleases.held.length_eq
  have hsystem := hreleases.system
  rw [List.length_append] at hlength
  cases hr : Guards.releasedBy ScopedSession.guard p op with
  | none =>
    rw [hr] at hlength hsystem
    simp only [Option.toList_none, List.length_nil, Nat.zero_add] at hlength
    exact Or.inl ⟨rfl, hsystem, hlength⟩
  | some session =>
    rw [hr] at hlength hsystem
    simp only [Option.toList_some, List.length_cons, List.length_nil] at hlength
    have hcount : p.system.scopedSessionCount
        = (Guards.held ScopedSession.guard (Guards.step ScopedSession.guard p op)).length + 1 := by
      have := hinv.count
      omega
    refine Or.inr ⟨_, session, rfl, hcount, ?_, rfl⟩
    rw [← releaseScopedHexraysSession_eq hcount]
    apply hsystem

theorem openSession_eq (p : SessionProgram)
    : p.step (.openSession true) = Guards.adopt ScopedSession.guard ⟨some p.acquired.length⟩
        { p.system with
          scopedSessionCount := p.system.scopedSessionCount + 1
          pluginCalls := p.system.pluginCalls ++ [.init]
        } p :=
  rfl

theorem inv_step {p : SessionProgram} (hinv : p.Inv) (op : LifecycleOp) : (p.step op).Inv := by
  cases op with
  | available loaded => apply inv_available hinv
  | guarded loaded =>
    simp only [step, ensureHexrays_eq]
    apply inv_available hinv
  | openSession loaded =>
    cases loaded with
    | false => apply hinv
    | true =>
      rw [openSession_eq]
      constructor
      case count =>
        rw [Guards.held_adopt]
        simp [Guards.adopt, ScopedSession.guard, hinv.count]
      case up => simp [Guards.adopt, Lifecycle.Up]
  | session op =>
    simp only [step]
    rcases session_cases hinv op with ⟨_, hsystem, hlength⟩ | ⟨n, session, _, hcount, hsystem, hlength⟩
    . constructor
      case count =>
        rw [hsystem, hlength]
        apply hinv.count
      case up =>
        rw [hsystem]
        apply hinv.up
    . constructor
      case count =>
        rw [hsystem, hlength]
      case up =>
        rw [hsystem]
        intro hpos
        have hne : ¬ n = 0 := by
          simp only at hpos
          omega
        have hup := hinv.up (by omega)
        simp only [Lifecycle.Up, if_neg hne]
        apply hup

theorem ready_available {p : SessionProgram}
    (hready : p.system.hexraysReady = true → p.system.Up) (loaded : Bool)
    : (p.system.available loaded).2.hexraysReady = true → (p.system.available loaded).2.Up := by
  rcases available_cases loaded p.system with heq | heq
  . rw [heq]
    apply hready
  . rw [heq]
    simp [Lifecycle.Up]

theorem sound_step {p : SessionProgram} (hinv : p.Inv) (hsound : p.Sound) (op : LifecycleOp)
    : (p.step op).Sound ↔ p.KeepsPlugin op := by
  rw [sound_iff (inv_step hinv op)]
  have hready := (sound_iff hinv).mp hsound
  cases op with
  | available loaded =>
    simp only [KeepsPlugin, iff_true]
    apply ready_available hready
  | guarded loaded =>
    simp only [KeepsPlugin, iff_true, step, ensureHexrays_eq]
    apply ready_available hready
  | openSession loaded =>
    simp only [KeepsPlugin, iff_true]
    cases loaded with
    | false => apply hready
    | true => simp [openSession_eq, Guards.adopt, Lifecycle.Up]
  | session op =>
    simp only [step, KeepsPlugin]
    rcases session_cases hinv op with ⟨hnone, hsystem, _⟩ | ⟨n, session, hsome, hcount, hsystem, _⟩
    . rw [hsystem, hnone]
      simp only [Option.isSome_none, Bool.false_eq_true, and_false, not_false_eq_true, iff_true]
      apply hready
    . rw [hsystem, hsome, hcount]
      cases n with
      | zero =>
        -- The last session has gone, so what is ready now is so by the flag alone.
        simp [Lifecycle.hexraysReady, Lifecycle.Up]
      | succ n =>
        have hup := hinv.up (by omega)
        unfold Lifecycle.Up at hup
        simp [Lifecycle.Up, hup]

theorem inv_initial : initial.Inv where
  count := rfl
  up := by simp [initial]

theorem sound_initial : initial.Sound := by
  rw [sound_iff inv_initial]
  simp [initial, Lifecycle.hexraysReady]

end SessionProgram

end Invariant

section Runs

namespace SessionProgram

/--
The answers along a run are right exactly when no operation of it releases the last session after
a query has set the flag.
-/
theorem always_sound_iff (ops : List LifecycleOp)
    : Machine.Always step Sound initial ops ↔ Machine.Guarded step KeepsPlugin initial ops := by
  apply Machine.always_iff_guarded_of_invariant (J := Inv)
  . intro p op hinv
    apply inv_step hinv
  . intro p op hinv hsound
    apply sound_step hinv hsound
  . apply inv_initial
  . apply sound_initial

theorem not_always_sound_queryThenSession
    : ¬ Machine.Always step Sound initial
        [.available true, .openSession true, .session (.close 0)] := by
  intro halways
  have hsound := halways.right.right.right
  have hup := hsound.ensure false rfl
  cases hup

end SessionProgram

end Runs

end Decompiler
end Idax
