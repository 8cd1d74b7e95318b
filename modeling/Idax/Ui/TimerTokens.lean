import Idax.Library.Machine
import Idax.Ui.Timers

/-!
Runs of programs that use timers, and which of them keep away from states that were freed and from timers
that are gone.
-/

namespace Idax
namespace Ui

namespace Timers

def IsLive (s : Timers) (token : UInt64) : Prop :=
  ∃ t ∈ s.live, t.ud = token

structure Inv (s : Timers) : Prop where
  state : ∀ t ∈ s.live, ∃ state, s.heap t.ud = some state ∧ state.timer = t.handle
  handle : ∀ t ∈ s.live, ∀ t' ∈ s.live, t.handle = t'.handle → t = t'
  timer : ∀ a state, s.heap a = some state → state.timer ≠ 0
  zero : s.heap 0 = none

variable {s : Timers}

section Invariant

theorem heap_ne_none {t : SdkTimer} (hinv : s.Inv) (ht : t ∈ s.live) : s.heap t.ud ≠ none := by
  rcases hinv.state t ht with ⟨state, hstate, _⟩
  rw [hstate]
  simp

theorem Inv.of_subset {s' : Timers} (hinv : s.Inv) (hheap : s'.heap = s.heap)
    (hlive : ∀ t ∈ s'.live, t ∈ s.live)
    : s'.Inv where
  state := by
    intro t ht
    rw [hheap]
    exact hinv.state t (hlive t ht)
  handle := by
    intro t ht t' ht'
    exact hinv.handle t (hlive t ht) t' (hlive t' ht')
  timer := by
    rw [hheap]
    exact hinv.timer
  zero := by
    rw [hheap]
    exact hinv.zero

theorem inv_sdkDestroy (hinv : s.Inv) (timer : SdkTimer) : (s.sdkDestroy timer).Inv := by
  apply hinv.of_subset
  . rfl
  . intro t ht
    exact (List.mem_filter.mp ht).left

theorem inv_registerTimer (hinv : s.Inv) (callback : Bool) {state handle : UInt64}
    (hfree : s.heap state = none) (hstate : state ≠ 0) (hnew : ∀ t ∈ s.live, t.handle ≠ handle)
    : (s.registerTimer callback state handle).snd.Inv := by
  unfold registerTimer
  split
  . apply hinv.of_subset
    . simp only [setState, Function.update_idem]
      rw [← hfree, Function.update_eq_self]
    . exact fun t ht => ht
  . next hhandle =>
    have hother {t : SdkTimer} (ht : t ∈ s.live) : t.ud ≠ state := by
      intro heq
      apply heap_ne_none hinv ht
      rw [heq, hfree]
    simp only [setState, sdkRegister, Function.update_idem]
    constructor <;> dsimp only
    . intro t ht
      rcases List.mem_cons.mp ht with rfl | ht
      . exact ⟨_, Function.update_self _ _ _, rfl⟩
      . rcases hinv.state t ht with ⟨state', hstate', htimer⟩
        refine ⟨state', ?_, htimer⟩
        rw [Function.update_of_ne (hother ht)]
        exact hstate'
    . intro t ht t' ht' heq
      rcases List.mem_cons.mp ht with rfl | ht <;> rcases List.mem_cons.mp ht' with rfl | ht'
      . rfl
      . exact absurd heq.symm (hnew t' ht')
      . exact absurd heq (hnew t ht)
      . exact hinv.handle t ht t' ht' heq
    . intro a state' hstate'
      by_cases ha : a = state
      . subst ha
        rw [Function.update_self] at hstate'
        injection hstate' with hstate'
        rw [← hstate']
        exact hhandle
      . rw [Function.update_of_ne ha] at hstate'
        exact hinv.timer a state' hstate'
    . rw [Function.update_of_ne hstate.symm]
      exact hinv.zero

theorem unregisterTimer_cases (hinv : s.Inv) {token : UInt64} (htoken : token ≠ 0)
    : (s.heap token = none ∧ s.unregisterTimer token = .error .freedState)
      ∨ ∃ state, s.heap token = some state
        ∧ ((∀ t ∈ s.live, t.handle ≠ state.timer) ∧ s.unregisterTimer token = .error .destroyedHandle
          ∨ ∃ t ∈ s.live, t.handle = state.timer
            ∧ s.unregisterTimer token = .ok (ok,
                { s with
                  live := s.live.filter (·.handle != state.timer)
                  gTimers := s.gTimers.filter (· != token)
                  heap := Function.update s.heap token none })) := by
  unfold unregisterTimer
  rw [if_neg htoken]
  cases hheap : s.heap token with
  | none => exact .inl ⟨rfl, rfl⟩
  | some state =>
    refine .inr ⟨state, rfl, ?_⟩
    simp only [if_neg (hinv.timer token state hheap), sdkUnregister]
    cases hany : s.live.any (·.handle == state.timer) with
    | false =>
      refine .inl ⟨?_, rfl⟩
      simpa using hany
    | true =>
      rw [List.any_eq_true] at hany
      rcases hany with ⟨t, ht, heq⟩
      exact .inr ⟨t, ht, beq_iff_eq.mp heq, rfl⟩

theorem inv_unregisterTimer (hinv : s.Inv) {token : UInt64} {status : Status} {s' : Timers}
    (h : s.unregisterTimer token = .ok (status, s'))
    : s'.Inv := by
  by_cases htoken : token = 0
  . rw [unregisterTimer, if_pos htoken] at h
    injection h with h
    injection h with _ h
    rw [← h]
    exact hinv
  . rcases unregisterTimer_cases hinv htoken with
      ⟨_, hfault⟩ | ⟨state, hheap, ⟨_, hfault⟩ | ⟨_, _, _, hok⟩⟩
    . rw [hfault] at h
      cases h
    . rw [hfault] at h
      cases h
    . rw [hok] at h
      injection h with h
      injection h with _ h
      subst h
      have hother {t : SdkTimer} (ht : t ∈ s.live) (hne : t.handle ≠ state.timer) : t.ud ≠ token := by
        intro heq
        rcases hinv.state t ht with ⟨state', hstate', htimer⟩
        rw [heq, hheap] at hstate'
        injection hstate' with hstate'
        rw [← hstate'] at htimer
        exact hne htimer.symm
      constructor <;> dsimp only
      . intro t ht
        rw [List.mem_filter, bne_iff_ne] at ht
        rw [Function.update_of_ne (hother ht.left ht.right)]
        exact hinv.state t ht.left
      . intro t ht t' ht'
        exact hinv.handle t (List.mem_filter.mp ht).left t' (List.mem_filter.mp ht').left
      . intro a state' hstate'
        by_cases ha : a = token
        . rw [ha, Function.update_self] at hstate'
          cases hstate'
        . rw [Function.update_of_ne ha] at hstate'
          exact hinv.timer a state' hstate'
      . rw [Function.update_of_ne (Ne.symm htoken)]
        exact hinv.zero

theorem enterCallback_of_live (hinv : s.Inv) {timer : SdkTimer} (ht : timer ∈ s.live)
    : ∃ s', s.enterCallback timer = .ok s' ∧ s'.Inv := by
  unfold enterCallback
  rcases hinv.state timer ht with ⟨state, hstate, _⟩
  rw [hstate]
  cases hcallback : state.callback with
  | true =>
    refine ⟨{ s with running := timer :: s.running }, ?_, hinv.of_subset rfl fun _ h => h⟩
    simp only [hcallback, if_true]
  | false =>
    refine ⟨s.sdkDestroy timer, ?_, inv_sdkDestroy hinv timer⟩
    simp only [hcallback, Bool.false_eq_true, if_false]

theorem inv_leaveCallback (hinv : s.Inv) (ret : Int) : (s.leaveCallback ret).Inv := by
  unfold leaveCallback
  cases s.running with
  | nil => exact hinv
  | cons timer running =>
    have hpopped : { s with running }.Inv := hinv.of_subset rfl fun _ h => h
    dsimp only
    split
    . exact inv_sdkDestroy hpopped timer
    . exact hpopped

end Invariant

end Timers

structure TimerAnswer where
  before : Timers
  token : UInt64
  status : Status
  after : Timers

def TimerAnswer.Exact (answer : TimerAnswer) : Prop :=
  (answer.status = ok ↔ answer.before.IsLive answer.token)
    ∧ (answer.status ≠ ok → answer.after = answer.before)

/--
A run that has come to a fault stops there.
-/
structure TimerProgram where
  timers : Timers := {}
  issued : List UInt64 := []
  fault : Option TimerFault := none
  answers : List TimerAnswer := []

/--
An allocation and a registration may return any address and any handle that are not in use. The callbacks
of a program are its operations between `enter` and `leave`.
-/
inductive TimerOp where
  | register (callback : Bool) (state handle : UInt64)
  | unregister (token : UInt64)
  | enter (timer : SdkTimer)
  | leave (ret : Int)
  deriving DecidableEq, Repr

namespace TimerProgram

variable (p : TimerProgram)

def Possible : TimerOp → Prop
  | .register _ state handle =>
    p.timers.heap state = none ∧ state ≠ 0 ∧ ∀ t ∈ p.timers.live, t.handle ≠ handle
  | .unregister token => token = 0 ∨ token ∈ p.issued
  | .enter timer => timer ∈ p.timers.live
  | .leave _ => p.timers.running ≠ []

instance instDecidablePossible : (op : TimerOp) → Decidable (p.Possible op)
  | .register _ state handle =>
    inferInstanceAs (Decidable
      (p.timers.heap state = none ∧ state ≠ 0 ∧ ∀ t ∈ p.timers.live, t.handle ≠ handle))
  | .unregister token => inferInstanceAs (Decidable (token = 0 ∨ token ∈ p.issued))
  | .enter timer => inferInstanceAs (Decidable (timer ∈ p.timers.live))
  | .leave _ => inferInstanceAs (Decidable (p.timers.running ≠ []))

def register (callback : Bool) (state handle : UInt64) : TimerProgram :=
  match p.timers.registerTimer callback state handle with
  | (.error _, timers) => { p with timers }
  | (.ok token, timers) => { p with timers, issued := token :: p.issued }

def unregister (token : UInt64) : TimerProgram :=
  match p.timers.unregisterTimer token with
  | .error fault => { p with fault := some fault }
  | .ok (status, timers) =>
    { p with
      timers
      answers := { before := p.timers, token, status, after := timers } :: p.answers }

def enter (timer : SdkTimer) : TimerProgram :=
  match p.timers.enterCallback timer with
  | .error fault => { p with fault := some fault }
  | .ok timers => { p with timers }

def leave (ret : Int) : TimerProgram :=
  { p with timers := p.timers.leaveCallback ret }

def perform : TimerOp → TimerProgram
  | .register callback state handle => p.register callback state handle
  | .unregister token => p.unregister token
  | .enter timer => p.enter timer
  | .leave ret => p.leave ret

def step (op : TimerOp) : TimerProgram :=
  if p.fault = none ∧ p.Possible op then p.perform op else p

def Sound : Prop :=
  p.fault = none ∧ ∀ answer ∈ p.answers, answer.Exact

def LiveToken : TimerOp → Prop
  | .unregister token => token ∈ p.issued → p.timers.IsLive token
  | _ => True

section Runs

variable {p}

structure Inv (p : TimerProgram) : Prop where
  timers : p.timers.Inv
  issued : 0 ∉ p.issued

theorem sound_of_eq {p' : TimerProgram} (hsound : p.Sound) (hfault : p'.fault = p.fault)
    (hanswers : p'.answers = p.answers)
    : p'.Sound := by
  unfold Sound
  rw [hfault, hanswers]
  exact hsound

theorem inv_register (hinv : p.Inv) (callback : Bool) {state handle : UInt64}
    (hpossible : p.Possible (.register callback state handle))
    : (p.register callback state handle).Inv := by
  rcases hpossible with ⟨hfree, hstate, hnew⟩
  have htimers := Timers.inv_registerTimer hinv.timers callback hfree hstate hnew
  unfold register
  rcases hregister : p.timers.registerTimer callback state handle with ⟨_ | token, timers⟩
  . rw [hregister] at htimers
    exact ⟨htimers, hinv.issued⟩
  . rw [hregister] at htimers
    have htoken : token = state := by
      unfold Timers.registerTimer at hregister
      split at hregister
      . cases hregister
      . cases hregister
        rfl
    refine ⟨htimers, ?_⟩
    rw [List.mem_cons, not_or, htoken]
    exact ⟨hstate.symm, hinv.issued⟩

theorem sound_register (hsound : p.Sound) (callback : Bool) (state handle : UInt64)
    : (p.register callback state handle).Sound := by
  unfold register
  rcases p.timers.registerTimer callback state handle with ⟨_ | token, timers⟩
  . exact sound_of_eq hsound rfl rfl
  . exact sound_of_eq hsound rfl rfl

theorem inv_unregister (hinv : p.Inv) (token : UInt64) : (p.unregister token).Inv := by
  unfold unregister
  rcases hunregister : p.timers.unregisterTimer token with _ | ⟨status, timers⟩
  . exact ⟨hinv.timers, hinv.issued⟩
  . exact ⟨Timers.inv_unregisterTimer hinv.timers hunregister, hinv.issued⟩

theorem inv_enter (hinv : p.Inv) {timer : SdkTimer} (hlive : timer ∈ p.timers.live)
    : (p.enter timer).Inv ∧ (p.Sound → (p.enter timer).Sound) := by
  rcases Timers.enterCallback_of_live hinv.timers hlive with ⟨timers, henter, htimers⟩
  unfold enter
  rw [henter]
  exact ⟨⟨htimers, hinv.issued⟩, fun hsound => sound_of_eq hsound rfl rfl⟩

theorem inv_perform (hinv : p.Inv) {op : TimerOp} (hpossible : p.Possible op) : (p.perform op).Inv := by
  cases op with
  | register callback state handle => exact inv_register hinv callback hpossible
  | unregister token => exact inv_unregister hinv token
  | enter timer => exact (inv_enter hinv hpossible).left
  | leave ret => exact ⟨Timers.inv_leaveCallback hinv.timers ret, hinv.issued⟩

theorem inv_step (p : TimerProgram) (op : TimerOp) (hinv : p.Inv) : (p.step op).Inv := by
  unfold step
  split
  . next hstep => exact inv_perform hinv hstep.right
  . exact hinv

theorem sound_unregister_of_ok (hsound : p.Sound) {token : UInt64} {status : Status} {timers : Timers}
    (h : p.timers.unregisterTimer token = .ok (status, timers))
    : (p.unregister token).Sound ↔ TimerAnswer.Exact ⟨p.timers, token, status, timers⟩ := by
  unfold unregister Sound
  simp only [h, List.forall_mem_cons]
  constructor
  . exact fun hall => hall.right.left
  . exact fun hexact => ⟨hsound.left, hexact, hsound.right⟩

theorem not_sound_unregister {token : UInt64} {fault : TimerFault}
    (h : p.timers.unregisterTimer token = .error fault)
    : ¬(p.unregister token).Sound := by
  unfold unregister Sound
  simp [h]

theorem sound_unregister_zero (hinv : p.Inv) (hsound : p.Sound) : (p.unregister 0).Sound := by
  rw [sound_unregister_of_ok hsound (by rw [Timers.unregisterTimer, if_pos rfl])]
  constructor
  . apply iff_of_false
    . exact fun h => nomatch h
    . intro ⟨t, ht, hud⟩
      apply Timers.heap_ne_none hinv.timers ht
      rw [hud]
      exact hinv.timers.zero
  . exact fun _ => rfl

theorem sound_unregister_iff (hinv : p.Inv) (hsound : p.Sound) {token : UInt64} (htoken : token ≠ 0)
    : (p.unregister token).Sound ↔ p.timers.IsLive token := by
  -- of the cases of a call only the last one, where the timer of the state is in the kernel, is sound
  rcases Timers.unregisterTimer_cases hinv.timers htoken with
    ⟨hheap, hfault⟩ | ⟨state, hheap, ⟨hgone, hfault⟩ | ⟨t, ht, hhandle, hok⟩⟩
  . apply iff_of_false (not_sound_unregister hfault)
    intro ⟨t, ht, hud⟩
    rw [← hud] at hheap
    exact absurd hheap (Timers.heap_ne_none hinv.timers ht)
  . apply iff_of_false (not_sound_unregister hfault)
    intro ⟨t, ht, hud⟩
    rcases hinv.timers.state t ht with ⟨state', hstate', htimer⟩
    rw [hud, hheap] at hstate'
    injection hstate' with hstate'
    rw [← hstate'] at htimer
    exact absurd htimer.symm (hgone t ht)
  . rw [sound_unregister_of_ok hsound hok]
    unfold TimerAnswer.Exact
    simp

theorem sound_step_iff (p : TimerProgram) (op : TimerOp) (hinv : p.Inv) (hsound : p.Sound)
    : (p.step op).Sound ↔ p.LiveToken op := by
  unfold step
  by_cases hpossible : p.Possible op
  . rw [if_pos ⟨hsound.left, hpossible⟩]
    cases op with
    | register callback state handle =>
      exact iff_of_true (sound_register hsound callback state handle) trivial
    | unregister token =>
      by_cases htoken : token = 0
      . subst htoken
        apply iff_of_true (sound_unregister_zero hinv hsound)
        intro hissued
        exact absurd hissued hinv.issued
      . have hissued : token ∈ p.issued := hpossible.resolve_left htoken
        rw [perform, sound_unregister_iff hinv hsound htoken]
        exact ⟨fun h _ => h, fun h => h hissued⟩
    | enter timer =>
      exact iff_of_true ((inv_enter hinv hpossible).right hsound) trivial
    | leave ret => exact iff_of_true (sound_of_eq hsound rfl rfl) trivial
  . rw [if_neg (fun h => hpossible h.right)]
    apply iff_of_true hsound
    cases op with
    | unregister token => exact fun hissued => absurd (.inr hissued) hpossible
    | _ => trivial

end Runs

end TimerProgram

end Ui
end Idax
