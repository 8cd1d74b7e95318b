import Idax.Error
import Idax.Library.Machine
import Idax.Library.SharedPtr
import Mathlib.Data.String.Basic

/-!
This module contains the executors that Rust registers for appcalls: the registry of `ida::debugger` holds
a shared executor under a name, which has the address of the Rust closure and drops it when it goes, and
a call holds the executor while its closure runs.
-/

namespace Idax
namespace Rust

open Ownership SharedPtr

structure Executors where
  executors : OrderedMap String Nat := .empty
  objects : Objects := .empty
  running : List Nat := []
  saved : OrderedMap String Nat := .empty

namespace Executors

section Registry

def registerNamed (name : String) (executor : Option Nat) (s : Executors) : Mem (Status × Executors) :=
  if name = "" then
    return (.error (.validation "Executor name cannot be empty"), s)
  else
    match executor with
    | none => return (.error (.validation "Executor pointer cannot be null"), s)
    | some p =>
      if (s.executors.find? name).isSome then
        return (.error (.conflict "Executor is already registered" name), s)
      else do
        let objects ← copy p s.objects
        return (ok, { s with executors := s.executors.insert name p, objects })

def unregisterNamed (name : String) (s : Executors) : Mem (Status × Executors) :=
  if name = "" then
    return (.error (.validation "Executor name cannot be empty"), s)
  else
    match s.executors.find? name with
    | none => return (.error (.notFound "Executor is not registered" name), s)
    | some p => do
      let objects ← release p s.objects
      return (ok, { s with executors := s.executors.erase name, objects })

def findNamed (name : String) (s : Executors) : Mem (Result Nat × Executors) :=
  if name = "" then
    return (.error (.validation "Executor name cannot be empty"), s)
  else
    match s.executors.find? name with
    | none => return (.error (.notFound "Executor is not registered" name), s)
    | some p => do
      let objects ← copy p s.objects
      return (.ok p, { s with objects })

end Registry

section Calls

/--
`idax_debugger_register_executor`, where `CAppcallExecutor` cleans up its context when it is destroyed.
-/
def register (name : String) (context : Nat) (s : Executors) : Mem (Status × Executors) := do
  let made ← make context s.objects
  let registered ← registerNamed name (some made.1) { s with objects := made.2 }
  let objects ← release made.1 registered.2.objects
  return (registered.1, { registered.2 with objects })

def Named (name : String) : Prop :=
  '\x00' ∉ name.toList

instance : DecidablePred Named := fun _ => inferInstanceAs (Decidable (¬ _))

def registerExecutor (name : String) (s : Executors) : Mem (Status × Executors) :=
  if Named name then do
    let raw ← box
    let registered ← register name raw s
    match registered.1 with
    | .error e =>
      free (some raw)
      return (.error e, registered.2)
    | .ok _ => return (ok, { registered.2 with saved := registered.2.saved.insert name raw })
  else
    return (.error (.validation "invalid executor name"), s)

def unregisterExecutor (name : String) (s : Executors) : Mem (Status × Executors) :=
  if Named name then do
    let unregistered ← unregisterNamed name s
    match unregistered.1 with
    | .error e => return (.error e, unregistered.2)
    | .ok _ => return (ok, { unregistered.2 with saved := unregistered.2.saved.erase name })
  else
    return (.error (.validation "invalid executor name"), s)

/--
A closure may run already when it is called.
-/
def enter (p : Nat) (s : Executors) : Mem Executors := do
  use p s.objects
  return { s with running := p :: s.running }

/--
`appcall_with_executor` up to the closure, which then runs.
-/
def call (name : String) (s : Executors) : Mem (Status × Executors) :=
  if Named name then do
    let found ← findNamed name s
    match found.1 with
    | .error e => return (.error e, found.2)
    | .ok p =>
      let s' ← enter p found.2
      return (ok, s')
  else
    return (.error (.validation "invalid executor name"), s)

def finish (i : Nat) (s : Executors) : Mem (Status × Executors) :=
  match s.running[i]? with
  | none => return (ok, s)
  | some p => do
    use p s.objects
    let objects ← release p s.objects
    return (ok, { s with objects, running := s.running.eraseIdx i })

inductive Action where
  | register (name : String)
  | unregister (name : String)
  | call (name : String)
  | finish (i : Nat)
  deriving DecidableEq, Repr

def perform : Action → Executors → Mem (Status × Executors)
  | .register name, s => registerExecutor name s
  | .unregister name, s => unregisterExecutor name s
  | .call name, s => call name s
  | .finish i, s => finish i s

def step (world : Option (Executors × Heap)) (action : Action) : Option (Executors × Heap) :=
  world.bind fun w => (perform action w.1 w.2).map fun result => (result.1.2, result.2)

end Calls

section Invariant

def holders (s : Executors) : Multiset Nat :=
  (s.executors.entries.map Prod.snd : List Nat) + (s.running : List Nat)

structure Kept (s : Executors) (h : Heap) : Prop where
  counted : Counted s.objects (holders s) 0 h
  saved : ∀ name, s.saved.find? name = (s.executors.find? name).bind (owned s.objects)
  named : ∀ name p, s.executors.find? name = some p → name ≠ "" ∧ Named name

variable {s : Executors} {h : Heap} {name : String}

theorem mem_holders_iff (p : Nat)
    : p ∈ holders s ↔ (∃ name, s.executors.find? name = some p) ∨ p ∈ s.running := by
  simp [holders, OrderedMap.mem_entries_iff]

theorem mem_holders (hfind : s.executors.find? name = some p) : p ∈ holders s :=
  (mem_holders_iff p).mpr (.inl ⟨name, hfind⟩)

theorem kept_empty : Kept {} {} := by
  refine ⟨counted_empty, ?_, ?_⟩
  . intro name
    rfl
  . intro name p hfind
    cases hfind

theorem Kept.saved_of_owned (hkept : Kept s h) {objects : Objects}
    (howned : ∀ q ∈ holders s, owned objects q = owned s.objects q) (name : String)
    : s.saved.find? name = (s.executors.find? name).bind (owned objects) := by
  rw [hkept.saved]
  cases hfind : s.executors.find? name with
  | none => rfl
  | some p => exact (howned p (mem_holders hfind)).symm

end Invariant

section Steps

variable {s : Executors} {h : Heap} {name : String}

theorem registerExecutor_ok (hkept : Kept s h) (hnamed : Named name) (hne : name ≠ "")
    (hnone : s.executors.find? name = none)
    : ∃ s' h', registerExecutor name s h = some ((ok, s'), h') ∧ Kept s' h' := by
  rcases hkept.counted.box with ⟨hbox, hboxed⟩
  rcases hboxed.make with ⟨objects₁, h₁, hmake, hcounted₁, hnew, howned₁⟩
  dsimp only at hmake hcounted₁ hnew howned₁
  rcases hcounted₁.copy (Multiset.mem_cons_self _ _) with ⟨objects₂, hcopy, hcounted₂, howned₂⟩
  rcases hcounted₂.release with ⟨objects₃, h₃, hrelease, hcounted₃, howned₃, _⟩
  have howned : ∀ q ∈ holders s, owned objects₃ q = owned s.objects q := by
    intro q hq
    rw [howned₃ q (Multiset.mem_cons_of_mem hq), howned₂, howned₁, if_neg]
    rintro rfl
    exact hnew hq
  refine ⟨{ s with
      executors := s.executors.insert name (h.requests + 1)
      objects := objects₃
      saved := s.saved.insert name h.requests
    }, h₃, ?_, ?_, ?_, ?_⟩
  . have hnamed' : registerNamed name (some (h.requests + 1)) { s with objects := objects₁ } h₁
        = some ((ok, { s with executors := s.executors.insert name (h.requests + 1), objects := objects₂ }),
          h₁) := by
      rw [registerNamed, if_neg hne, hnone]
      exact bind_of_eq hcopy
    have hregister : register name h.requests s
        { live := h.requests ::ₘ h.live, requests := h.requests + 1 }
        = some ((ok, { s with executors := s.executors.insert name (h.requests + 1), objects := objects₃ }),
          h₃) := by
      rw [register, bind_of_eq hmake, bind_of_eq hnamed', bind_of_eq hrelease]
      rfl
    rw [registerExecutor, if_pos hnamed, bind_of_eq hbox, bind_of_eq hregister]
    rfl
  . have hholders : holders { s with
        executors := s.executors.insert name (h.requests + 1)
        objects := objects₃
        saved := s.saved.insert name h.requests
      } = (h.requests + 1) ::ₘ holders s := by
      have hperm := ((s.executors.perm_insert name (h.requests + 1)).map Prod.snd).trans
        (((OrderedMap.perm_erase_of_none hnone).map Prod.snd).cons _)
      rw [holders, Multiset.coe_eq_coe.mpr hperm]
      rfl
    rw [hholders]
    exact hcounted₃
  . intro name'
    dsimp only
    rw [OrderedMap.find?_insert, OrderedMap.find?_insert]
    split
    . rw [Option.bind_some, howned₃ _ (Multiset.mem_cons_self _ _), howned₂, howned₁, if_pos rfl]
    . exact hkept.saved_of_owned howned name'
  . intro name' p
    dsimp only
    rw [OrderedMap.find?_insert]
    split
    . next heq => exact fun _ => heq ▸ ⟨hne, hnamed⟩
    . exact hkept.named name' p

/--
The executor that is refused drops the closure, and then Rust drops it once more.
-/
theorem registerExecutor_refused (hkept : Kept s h) (hnamed : Named name)
    (hrefused : name = "" ∨ (s.executors.find? name).isSome)
    : registerExecutor name s h = none := by
  rcases hkept.counted.box with ⟨hbox, hboxed⟩
  rcases hboxed.make with ⟨objects₁, h₁, hmake, hcounted₁, hnew, howned₁⟩
  dsimp only at hmake hcounted₁ hnew howned₁
  rcases hcounted₁.release with ⟨objects₂, h₂, hrelease, _, _, hgone⟩
  have hdropped : h.requests ∉ h₂.live := by
    apply hgone hnew
    rw [howned₁, if_pos rfl]
  have hnamed' : ∃ e, registerNamed name (some (h.requests + 1)) { s with objects := objects₁ } h₁
      = some ((.error e, { s with objects := objects₁ }), h₁) := by
    rw [registerNamed]
    by_cases hempty : name = ""
    . rw [if_pos hempty]
      exact ⟨_, rfl⟩
    . rw [if_neg hempty, if_pos (hrefused.resolve_left hempty)]
      exact ⟨_, rfl⟩
  rcases hnamed' with ⟨e, hnamed'⟩
  have hregister : register name h.requests s
      { live := h.requests ::ₘ h.live, requests := h.requests + 1 }
      = some ((.error e, { s with objects := objects₂ }), h₂) := by
    rw [register, bind_of_eq hmake, bind_of_eq hnamed', bind_of_eq hrelease]
    rfl
  rw [registerExecutor, if_pos hnamed, bind_of_eq hbox, bind_of_eq hregister]
  apply bind_of_eq_none
  exact if_neg hdropped

theorem unregisterExecutor_kept (hkept : Kept s h) (name : String)
    : ∃ status s' h', unregisterExecutor name s h = some ((status, s'), h') ∧ Kept s' h' := by
  rw [unregisterExecutor]
  by_cases hnamed : Named name
  case neg =>
    rw [if_neg hnamed]
    exact ⟨_, s, h, rfl, hkept⟩
  rw [if_pos hnamed]
  cases hfind : s.executors.find? name with
  | none =>
    have hunregister : ∃ e, unregisterNamed name s h = some ((.error e, s), h) := by
      rw [unregisterNamed]
      by_cases hempty : name = ""
      . rw [if_pos hempty]
        exact ⟨_, rfl⟩
      . rw [if_neg hempty, hfind]
        exact ⟨_, rfl⟩
    rcases hunregister with ⟨e, hunregister⟩
    rw [bind_of_eq hunregister]
    exact ⟨_, s, h, rfl, hkept⟩
  | some p =>
    have hholders : holders s = p ::ₘ holders { s with executors := s.executors.erase name } := by
      have hperm := (OrderedMap.perm_cons_erase hfind).map Prod.snd
      rw [holders, Multiset.coe_eq_coe.mpr hperm]
      rfl
    have hcounted := hkept.counted
    rw [hholders] at hcounted
    rcases hcounted.release with ⟨objects', h', hrelease, hcounted', howned, _⟩
    have hunregister : unregisterNamed name s h
        = some ((ok, { s with executors := s.executors.erase name, objects := objects' }), h') := by
      rw [unregisterNamed, if_neg (hkept.named name p hfind).left, hfind]
      exact bind_of_eq hrelease
    rw [bind_of_eq hunregister]
    refine ⟨_, _, _, rfl, hcounted', ?_, ?_⟩
    . intro name'
      dsimp only
      rw [OrderedMap.find?_erase, OrderedMap.find?_erase]
      by_cases heq : name' = name
      . rw [if_pos heq, if_pos heq]
        rfl
      . rw [if_neg heq, if_neg heq, hkept.saved]
        cases hfind' : s.executors.find? name' with
        | none => rfl
        | some q =>
          refine (howned q ((mem_holders_iff q).mpr (.inl ⟨name', ?_⟩))).symm
          dsimp only
          rw [OrderedMap.find?_erase, if_neg heq, hfind']
    . intro name' q
      dsimp only
      rw [OrderedMap.find?_erase]
      split
      . intro hnone
        cases hnone
      . exact hkept.named name' q

theorem call_of_none (hfind : s.executors.find? name = none)
    : ∃ status, call name s h = some ((status, s), h) := by
  rw [call]
  by_cases hnamed : Named name
  . have hfound : ∃ e, findNamed name s h = some ((.error e, s), h) := by
      rw [findNamed]
      by_cases hempty : name = ""
      . rw [if_pos hempty]
        exact ⟨_, rfl⟩
      . rw [if_neg hempty, hfind]
        exact ⟨_, rfl⟩
    rcases hfound with ⟨e, hfound⟩
    rw [if_pos hnamed, bind_of_eq hfound]
    exact ⟨_, rfl⟩
  . rw [if_neg hnamed]
    exact ⟨_, rfl⟩

theorem call_of_some (hkept : Kept s h) {p : Nat} (hfind : s.executors.find? name = some p)
    : ∃ s', call name s h = some ((ok, s'), h) ∧ Kept s' h := by
  rcases hkept.named name p hfind with ⟨hne, hnamed⟩
  rcases hkept.counted.copy (mem_holders hfind) with ⟨objects', hcopy, hcounted, howned⟩
  have hfound : findNamed name s h = some ((.ok p, { s with objects := objects' }), h) := by
    rw [findNamed, if_neg hne, hfind]
    exact bind_of_eq hcopy
  have henter : enter p { s with objects := objects' } h
      = some ({ s with objects := objects', running := p :: s.running }, h) :=
    bind_of_eq (hcounted.use (Multiset.mem_cons_self p _))
  rw [call, if_pos hnamed, bind_of_eq hfound]
  dsimp only
  rw [bind_of_eq henter]
  refine ⟨_, rfl, ?_, hkept.saved_of_owned fun q _ => howned q, hkept.named⟩
  have hholders : holders { s with objects := objects', running := p :: s.running } = p ::ₘ holders s := by
    rw [holders, ← Multiset.cons_coe, Multiset.add_cons]
    rfl
  rw [hholders]
  exact hcounted

theorem call_kept (hkept : Kept s h) (name : String)
    : ∃ status s', call name s h = some ((status, s'), h) ∧ Kept s' h := by
  cases hfind : s.executors.find? name with
  | none =>
    rcases call_of_none (h := h) hfind with ⟨status, hrun⟩
    exact ⟨status, s, hrun, hkept⟩
  | some p =>
    rcases call_of_some hkept hfind with ⟨s', hrun, hkept'⟩
    exact ⟨ok, s', hrun, hkept'⟩

theorem finish_kept (hkept : Kept s h) (i : Nat)
    : ∃ s' h', finish i s h = some ((ok, s'), h') ∧ Kept s' h' := by
  rw [finish]
  cases hget : s.running[i]? with
  | none => exact ⟨s, h, rfl, hkept⟩
  | some p =>
    have hholders : holders s = p ::ₘ holders { s with running := s.running.eraseIdx i } := by
      have hperm := (List.getElem_cons_eraseIdx_perm (List.getElem?_eq_some_iff.mp hget).choose).symm
      rw [(List.getElem?_eq_some_iff.mp hget).choose_spec] at hperm
      rw [holders, Multiset.coe_eq_coe.mpr hperm, ← Multiset.cons_coe, Multiset.add_cons]
      rfl
    have hcounted := hkept.counted
    rw [hholders] at hcounted
    rcases hcounted.release with ⟨objects', h', hrelease, hcounted', howned, _⟩
    dsimp only
    rw [bind_of_eq (hcounted.use (Multiset.mem_cons_self p _)), bind_of_eq hrelease]
    refine ⟨_, _, rfl, hcounted', ?_, hkept.named⟩
    intro name
    rw [hkept.saved]
    cases hfind : s.executors.find? name with
    | none => rfl
    | some q => exact (howned q ((mem_holders_iff q).mpr (.inl ⟨name, hfind⟩))).symm

end Steps

section Run

def Accepted : Option (Executors × Heap) → Action → Prop
  | some (s, _), .register name => Named name → name ≠ "" ∧ s.executors.find? name = none
  | _, _ => True

structure Accounted (s : Executors) (h : Heap) : Prop where
  live_iff : ∀ b, b ∈ h.live ↔ ∃ p, ((∃ name, s.executors.find? name = some p) ∨ p ∈ s.running)
    ∧ (b = p ∨ owned s.objects p = some b)
  nodup : h.live.Nodup
  saved : ∀ name, s.saved.find? name = (s.executors.find? name).bind (owned s.objects)

def KeptWorld (world : Option (Executors × Heap)) : Prop :=
  ∀ s h, world = some (s, h) → Kept s h

theorem Kept.accounted {s : Executors} {h : Heap} (hkept : Kept s h) : Accounted s h := by
  refine ⟨?_, hkept.counted.nodup, hkept.saved⟩
  intro b
  rw [hkept.counted.live, Multiset.add_zero, mem_blocks_iff]
  constructor
  . rintro ⟨p, object, hfind, hb⟩
    have hpos := hkept.counted.pos p object hfind
    have hcount := hkept.counted.count p
    rw [hfind] at hcount
    refine ⟨p, (mem_holders_iff p).mp (Multiset.count_pos.mp (hcount ▸ hpos)), ?_⟩
    rw [owned, hfind]
    exact hb.imp_right fun heq => congrArg some heq.symm
  . rintro ⟨p, hheld, hb⟩
    rcases hkept.counted.object ((mem_holders_iff p).mpr hheld) with ⟨object, hfind, _⟩
    rw [owned, hfind] at hb
    exact ⟨p, object, hfind, hb.imp_right fun heq => (Option.some.inj heq).symm⟩

theorem step_some {s : Executors} {h : Heap} (hkept : Kept s h) (action : Action)
    : KeptWorld (step (some (s, h)) action)
      ∧ (step (some (s, h)) action ≠ none ↔ Accepted (some (s, h)) action) := by
  have hdone {status : Status} {s' : Executors} {h' : Heap}
      (hrun : perform action s h = some ((status, s'), h'))
      (hkept' : Kept s' h')
      : KeptWorld (step (some (s, h)) action) ∧ step (some (s, h)) action ≠ none := by
    have hstep : step (some (s, h)) action = some (s', h') := by
      rw [step, Option.bind_some, hrun]
      rfl
    rw [hstep]
    refine ⟨?_, Option.some_ne_none _⟩
    rintro _ _ ⟨⟩
    exact hkept'
  have hharm (hrun : perform action s h = none)
      : KeptWorld (step (some (s, h)) action) ∧ step (some (s, h)) action = none := by
    have hstep : step (some (s, h)) action = none := by
      rw [step, Option.bind_some, hrun]
      rfl
    rw [hstep]
    refine ⟨?_, rfl⟩
    rintro _ _ ⟨⟩
  cases action with
  | register name =>
    by_cases haccepted : Accepted (some (s, h)) (.register name)
    . have hrun : ∃ status s' h', registerExecutor name s h = some ((status, s'), h') ∧ Kept s' h' := by
        by_cases hnamed : Named name
        . rcases haccepted hnamed with ⟨hne, hnone⟩
          exact ⟨ok, registerExecutor_ok hkept hnamed hne hnone⟩
        . rw [registerExecutor, if_neg hnamed]
          exact ⟨_, s, h, rfl, hkept⟩
      rcases hrun with ⟨status, s', h', hrun, hkept'⟩
      rcases hdone hrun hkept' with ⟨hworld, hsome⟩
      exact ⟨hworld, iff_of_true hsome haccepted⟩
    . have hrefused : Named name ∧ (name = "" ∨ (s.executors.find? name).isSome) := by
        simp only [Accepted, Classical.not_imp, not_and_or, not_not, ne_eq] at haccepted
        exact haccepted.imp_right (Or.imp_right Option.isSome_iff_ne_none.mpr)
      rcases hharm (registerExecutor_refused hkept hrefused.left hrefused.right) with ⟨hworld, hnone⟩
      exact ⟨hworld, iff_of_false (not_not.mpr hnone) haccepted⟩
  | unregister name =>
    rcases unregisterExecutor_kept hkept name with ⟨status, s', h', hrun, hkept'⟩
    rcases hdone hrun hkept' with ⟨hworld, hsome⟩
    exact ⟨hworld, iff_of_true hsome trivial⟩
  | call name =>
    rcases call_kept hkept name with ⟨status, s', hrun, hkept'⟩
    rcases hdone hrun hkept' with ⟨hworld, hsome⟩
    exact ⟨hworld, iff_of_true hsome trivial⟩
  | finish i =>
    rcases finish_kept hkept i with ⟨s', h', hrun, hkept'⟩
    rcases hdone hrun hkept' with ⟨hworld, hsome⟩
    exact ⟨hworld, iff_of_true hsome trivial⟩

theorem keptWorld_step (world : Option (Executors × Heap)) (action : Action) (hkept : KeptWorld world)
    : KeptWorld (step world action) := by
  cases world with
  | none => exact hkept
  | some w => exact (step_some (hkept w.1 w.2 rfl) action).left

theorem keptWorld_run (actions : List Action) {world : Option (Executors × Heap)} (hkept : KeptWorld world)
    : KeptWorld (Machine.run step world actions) := by
  induction actions generalizing world with
  | nil => exact hkept
  | cons action actions ih => exact ih (keptWorld_step world action hkept)

end Run

/--
In every run of registrations, calls that may be nested, and unregistrations, of executors that run or not,
no closure is used that has been dropped and none is dropped twice exactly when no registration is refused.
Then the closures that are live are those of the executors that are registered or running.
-/
theorem executors_safe (actions : List Action)
    : (Machine.Always step (· ≠ none) (some ({}, {})) actions
        ↔ Machine.Guarded step Accepted (some ({}, {})) actions)
      ∧ ∀ s h, Machine.run step (some ({}, {})) actions = some (s, h) → Accounted s h := by
  have hstart : KeptWorld (some ({}, {})) := by
    rintro _ _ ⟨⟩
    exact kept_empty
  refine ⟨?_, fun s h hrun => (keptWorld_run actions hstart s h hrun).accounted⟩
  apply Machine.always_iff_guarded_of_invariant keptWorld_step ?_ hstart (Option.some_ne_none _)
  intro world action hkept hsome
  cases world with
  | none => exact absurd rfl hsome
  | some w => exact (step_some (hkept w.1 w.2 rfl) action).right

-- An executor that is unregistered while it runs twice, and a second registration under one name.
example
    : (Machine.run step (some ({}, {}))
        [.register "sum", .call "sum", .call "sum", .unregister "sum", .finish 0, .finish 0]).isSome
      ∧ (Machine.run step (some ({}, {})) [.register "sum", .register "sum"]).isNone := by
  decide

end Executors

end Rust
end Idax
