import Idax.Decompiler.Readiness
import Idax.Registries

/-!
The guards of `ida::decompiler` and `ida::event`, in one program: sessions of Hex-Rays, and
subscriptions to its events and to those of the database. What a guard owns is owned by it alone and
released once, as long as a token is handed to one guard only.
-/

namespace Idax

variable {κ : Type u}

namespace Decompiler

structure ScopedSubscription where
  token : Nat := 0
  deriving DecidableEq, Repr

namespace ScopedSubscription

def valid (this : ScopedSubscription) : Bool :=
  this.token ≠ 0

def reset (this : ScopedSubscription) (s : Callbacks κ) : ScopedSubscription × Callbacks κ :=
  if this.token = 0 then
    (this, s)
  else
    let (_, s) := s.unsubscribe this.token
    ({ token := 0 }, s)

def moveConstruct (other : ScopedSubscription) : ScopedSubscription × ScopedSubscription :=
  ({ token := other.token }, { token := 0 })

/-- `operator=` where `this != &other`. -/
def moveAssign (this other : ScopedSubscription) (s : Callbacks κ)
    : ScopedSubscription × ScopedSubscription × Callbacks κ :=
  let (_, s) := this.reset s
  ({ token := other.token }, { token := 0 }, s)

def selfAssign (this : ScopedSubscription) (s : Callbacks κ) : ScopedSubscription × Callbacks κ :=
  (this, s)

def destroy (this : ScopedSubscription) (s : Callbacks κ) : Callbacks κ :=
  (this.reset s).2

def owns (this : ScopedSubscription) : Option Nat :=
  if this.token = 0 then none else some this.token

theorem reset_eq (this : ScopedSubscription) (s : Callbacks κ)
    : (this.reset s).1.owns = none
      ∧ (this.reset s).2 = this.owns.elim s fun token => (s.unsubscribe token).2 := by
  unfold reset owns
  by_cases h : this.token = 0 <;> simp [h]

def guard (κ : Type u) : Guards.GuardClass ScopedSubscription (Callbacks κ) Nat where
  owns := owns
  release := fun token s => (s.unsubscribe token).2
  empty := {}
  moveConstruct := moveConstruct
  moveAssign := moveAssign
  selfAssign := selfAssign
  close := some reset
  destroy := destroy
  owns_empty := rfl
  owns_moveConstruct := fun _ => ⟨rfl, rfl⟩
  moveAssign_eq := fun this _ s => ⟨rfl, rfl, (this.reset_eq s).right⟩
  selfAssign_eq := fun _ _ => ⟨rfl, rfl⟩
  close_eq := by
    intro f hf this s
    cases hf
    apply reset_eq
  destroy_eq := fun this s => (this.reset_eq s).right

end ScopedSubscription

end Decompiler

namespace Events

structure ScopedSubscription where
  token : Nat := 0
  deriving DecidableEq, Repr

namespace ScopedSubscription

def destroy (this : ScopedSubscription) (g : Globals κ) : Globals κ :=
  if this.token ≠ 0 then
    (g.unsubscribe this.token).2
  else
    g

def moveConstruct (other : ScopedSubscription) : ScopedSubscription × ScopedSubscription :=
  ({ token := other.token }, { token := 0 })

/-- `operator=` where `this != &o`. -/
def moveAssign (this other : ScopedSubscription) (g : Globals κ)
    : ScopedSubscription × ScopedSubscription × Globals κ :=
  let g := if this.token ≠ 0 then (g.unsubscribe this.token).2 else g
  ({ token := other.token }, { token := 0 }, g)

def selfAssign (this : ScopedSubscription) (g : Globals κ) : ScopedSubscription × Globals κ :=
  (this, g)

def owns (this : ScopedSubscription) : Option Nat :=
  if this.token = 0 then none else some this.token

theorem destroy_eq (this : ScopedSubscription) (g : Globals κ)
    : this.destroy g = this.owns.elim g fun token => (g.unsubscribe token).2 := by
  unfold destroy owns
  by_cases h : this.token = 0 <;> simp [h]

def guard (κ : Type u) : Guards.GuardClass ScopedSubscription (Globals κ) Nat where
  owns := owns
  release := fun token g => (g.unsubscribe token).2
  empty := {}
  moveConstruct := moveConstruct
  moveAssign := moveAssign
  selfAssign := selfAssign
  close := none
  destroy := destroy
  owns_empty := rfl
  owns_moveConstruct := fun _ => ⟨rfl, rfl⟩
  moveAssign_eq := fun this _ g => ⟨rfl, rfl, this.destroy_eq g⟩
  selfAssign_eq := fun _ _ => ⟨rfl, rfl⟩
  close_eq := by simp
  destroy_eq := destroy_eq

end ScopedSubscription

end Events

section World

structure World (κ : Type u) where
  sessions : Decompiler.SessionProgram := .initial
  decompiler : Guards.Program Decompiler.ScopedSubscription (Decompiler.Callbacks κ) Nat :=
    { system := {} }
  decompilerTokens : List Nat := []
  events : Guards.Program Events.ScopedSubscription (Events.Globals κ) Nat :=
    { system := .initial }
  eventTokens : List Nat := []

inductive WorldOp (κ : Type u) where
  | lifecycle (op : Decompiler.LifecycleOp)
  | subscribeDecompiler (request : Decompiler.Request κ) (answers : Decompiler.Globals.Answers)
  | guardDecompiler (token : Nat)
  | decompiler (op : Guards.Op)
  | subscribeEvent (request : Events.Request κ)
  | guardEvent (token : Nat)
  | event (op : Guards.Op)

namespace World

def globals (w : World κ) : Decompiler.Globals κ :=
  { toCallbacks := w.decompiler.system, lifecycle := w.sessions.system }

def step (w : World κ) : WorldOp κ → World κ
  | .lifecycle op => { w with sessions := w.sessions.step op }
  | .subscribeDecompiler request answers =>
    let (result, g) := request.run answers w.globals
    { w with
      sessions := { w.sessions with system := g.lifecycle }
      decompiler := { w.decompiler with system := g.toCallbacks }
      decompilerTokens := w.decompilerTokens ++ result.toOption.toList
    }
  | .guardDecompiler token => { w with
      decompiler := Guards.adopt (Decompiler.ScopedSubscription.guard κ) { token := token }
        w.decompiler.system w.decompiler
    }
  | .decompiler op => { w with
      decompiler := Guards.step (Decompiler.ScopedSubscription.guard κ) w.decompiler op
    }
  | .subscribeEvent request =>
    let (result, g) := request.run w.events.system
    { w with
      events := { w.events with system := g }
      eventTokens := w.eventTokens ++ result.toOption.toList
    }
  | .guardEvent token => { w with
      events := Guards.adopt (Events.ScopedSubscription.guard κ) { token := token }
        w.events.system w.events
    }
  | .event op => { w with
      events := Guards.step (Events.ScopedSubscription.guard κ) w.events op
    }

/--
A guard is constructed from a token that was returned, and that no guard was constructed from
before. Zero stands for no token.
-/
def HandsOver (w : World κ) : WorldOp κ → Prop
  | .guardDecompiler token =>
    token = 0 ∨ token ∈ w.decompilerTokens ∧ token ∉ w.decompiler.acquired
  | .guardEvent token => token = 0 ∨ token ∈ w.eventTokens ∧ token ∉ w.events.acquired
  | _ => True

end World

end World

section Tokens

variable {γ : Type v} {σ : Type w} (c : Guards.GuardClass γ σ Nat) (valid : σ → Prop)
variable (live : σ → Nat → Prop) (next : σ → Nat)

structure Tokens (p : Guards.Program γ σ Nat) (tokens : List Nat) : Prop where
  owned : Guards.Owned c valid live p
  acquired : ∀ t ∈ p.acquired, t ∈ tokens
  waiting : ∀ t ∈ tokens, t ∉ p.acquired → live p.system t
  lt_next : ∀ t ∈ tokens, t < next p.system

variable {c} {valid} {live} {next}

theorem Tokens.step
    (hvalid : ∀ r s, valid s → valid (c.release r s))
    (hlive : ∀ r s, valid s → live s r → ∀ r', live (c.release r s) r' ↔ live s r' ∧ r' ≠ r)
    (hnext : ∀ r s, valid s → next (c.release r s) = next s)
    {p : Guards.Program γ σ Nat} {tokens : List Nat} (h : Tokens c valid live next p tokens)
    (op : Guards.Op) : Tokens c valid live next (Guards.step c p op) tokens := by
  have hreleases := Guards.releases_step (c := c) p op
  refine ⟨Guards.owned_step hvalid hlive h.owned op, ?_, ?_, ?_⟩
  . rw [hreleases.acquired]
    apply h.acquired
  . intro t hmem hwaits
    rw [hreleases.acquired] at hwaits
    have hold := h.waiting t hmem hwaits
    rw [hreleases.system]
    cases hr : Guards.releasedBy c p op with
    | none => apply hold
    | some r =>
      have hheld : r ∈ Guards.held c p := by
        apply hreleases.held.subset
        simp [hr]
      simp only [Option.elim_some]
      rw [hlive r p.system h.owned.valid (h.owned.held r hheld)]
      refine ⟨hold, ?_⟩
      rintro rfl
      apply hwaits
      apply h.owned.balanced.subset (List.mem_append_left _ hheld)
  . intro t hmem
    rw [hreleases.system]
    cases hr : Guards.releasedBy c p op with
    | none => apply h.lt_next t hmem
    | some r =>
      simp only [Option.elim_some]
      rw [hnext r p.system h.owned.valid]
      apply h.lt_next t hmem

theorem Tokens.adopt {p : Guards.Program γ σ Nat} {tokens : List Nat}
    (h : Tokens c valid live next p tokens) {guard : γ}
    (hguard : ∀ r, c.owns guard = some r → r ∈ tokens ∧ r ∉ p.acquired)
    : Tokens c valid live next (Guards.adopt c guard p.system p) tokens := by
  refine ⟨?_, ?_, ?_, h.lt_next⟩
  . apply Guards.owned_adopt h.owned
    intro r howns
    rcases hguard r howns with ⟨hmem, hnew⟩
    exact ⟨h.waiting r hmem hnew, hnew⟩
  . intro t hmem
    rcases List.mem_append.mp hmem with hold | hnew
    . apply h.acquired t hold
    . apply (hguard t (Option.mem_toList.mp hnew)).left
  . intro t hmem hwaits
    apply h.waiting t hmem
    intro hacquired
    apply hwaits
    apply List.mem_append_left _ hacquired

theorem Tokens.subscribe {p : Guards.Program γ σ Nat} {tokens : List Nat}
    (h : Tokens c valid live next p tokens) {s : σ} (hvalid : valid s)
    (hlive : ∀ t, live s t ↔ t = next p.system ∨ live p.system t)
    (hnext : next s = next p.system + 1)
    : Tokens c valid live next { p with system := s } (tokens ++ [next p.system]) := by
  refine ⟨?_, ?_, ?_, ?_⟩
  . apply h.owned.of_system hvalid
    intro t hmem
    have := h.lt_next t (h.acquired t hmem)
    rw [hlive]
    simp only [or_iff_right_iff_imp]
    omega
  . intro t hmem
    apply List.mem_append_left _ (h.acquired t hmem)
  . intro t hmem hwaits
    rw [hlive]
    rcases List.mem_append.mp hmem with hold | hnew
    . apply Or.inr (h.waiting t hold hwaits)
    . apply Or.inl (List.mem_singleton.mp hnew)
  . intro t hmem
    rw [hnext]
    rcases List.mem_append.mp hmem with hold | hnew
    . have := h.lt_next t hold
      omega
    . rw [List.mem_singleton.mp hnew]
      omega

end Tokens

section Invariant

namespace Decompiler

def Callbacks.live (s : Callbacks κ) (token : Nat) : Prop :=
  (s.find token).isSome

theorem Callbacks.live_unsubscribe {s : Callbacks κ} (hvalid : s.Valid) {token : Nat}
    (hlive : s.live token) (token' : Nat)
    : (s.unsubscribe token).2.live token' ↔ s.live token' ∧ token' ≠ token := by
  rcases find_isSome_iff.mp hlive with ⟨map, hmem⟩
  unfold live
  rw [find_unsubscribe hvalid hmem]
  by_cases h : token' = token <;> simp [h]

theorem Callbacks.nextToken_unsubscribe {s : Callbacks κ} (hvalid : s.Valid) (token : Nat)
    : (s.unsubscribe token).2.nextToken = s.nextToken := by
  by_cases h : ∃ map, token ∈ (s.callbacks map).keys
  . rcases h with ⟨map, hmem⟩
    rw [unsubscribe_of_mem hvalid hmem]
    rfl
  . rw [not_exists] at h
    rcases unsubscribe_of_not_mem h with ⟨e, heq⟩
    rw [heq]

theorem Request.lifecycle_run (answers : Globals.Answers) (request : Request κ) (g : Globals κ)
    : (request.run answers g).2.lifecycle = g.lifecycle
      ∨ (request.run answers g).2.lifecycle
        = (g.lifecycle.ensureHexrays answers.loaded).2 := by
  rcases request.exists_run_eq answers with ⟨message, hrun⟩
  rw [hrun]
  cases request.subscription.2 with
  | none => apply Or.inl rfl
  | some callback =>
    right
    simp only [Globals.subscribe]
    split
    . rfl
    . split <;> rfl

structure SessionProgram.Numbered (p : SessionProgram) : Prop where
  inv : p.Inv
  balanced : Guards.Balanced ScopedSession.guard p
  acquired : p.acquired = List.range p.acquired.length

theorem SessionProgram.Numbered.step {p : SessionProgram} (h : p.Numbered) (op : LifecycleOp)
    : (p.step op).Numbered := by
  have hinv := inv_step h.inv op
  cases op with
  | available loaded => exact ⟨hinv, h.balanced, h.acquired⟩
  | guarded loaded => exact ⟨hinv, h.balanced, h.acquired⟩
  | openSession loaded =>
    cases loaded with
    | false => exact ⟨hinv, h.balanced, h.acquired⟩
    | true =>
      rw [openSession_eq] at hinv ⊢
      refine ⟨hinv, Guards.balanced_adopt h.balanced _ _, ?_⟩
      simp only [Guards.adopt, ScopedSession.guard, Option.toList_some, List.length_append,
        List.length_cons, List.length_nil, Nat.zero_add, List.range_succ]
      rw [← h.acquired]
  | session op =>
    refine ⟨hinv, Guards.balanced_step h.balanced op, ?_⟩
    have hsame := (Guards.releases_step (c := ScopedSession.guard) p op).acquired
    simp only [SessionProgram.step, hsame]
    apply h.acquired

theorem SessionProgram.length_held (p : SessionProgram)
    : (Guards.held ScopedSession.guard p).length
      = p.objects.countP (·.any ScopedSession.active) := by
  unfold Guards.held
  induction p.objects with
  | nil => rfl
  | cons object objects ih =>
    rw [List.flatMap_cons, List.length_append, List.countP_cons, ih, Nat.add_comm]
    congr 1
    cases object with
    | none => rfl
    | some session =>
      rcases session with ⟨session⟩
      cases session <;> rfl

end Decompiler

namespace Events

def Globals.live (g : Globals κ) (token : Nat) : Prop :=
  (g.subscriptions.find? token).isSome

theorem Globals.live_unsubscribe {g : Globals κ} (hvalid : g.Valid) {token : Nat}
    (hlive : g.live token) (token' : Nat)
    : (g.unsubscribe token).2.live token' ↔ g.live token' ∧ token' ≠ token := by
  have hfind := (laws.unsubscribe_some token g hvalid hlive).right.right token'
  simp only [model] at hfind
  unfold live
  rw [hfind]
  by_cases h : token' = token <;> simp [h]

theorem Globals.nextToken_unsubscribe {g : Globals κ} (hvalid : g.Valid) (token : Nat)
    : (g.unsubscribe token).2.nextToken = g.nextToken := by
  cases hfind : g.subscriptions.find? token with
  | none => apply (laws.unsubscribe_none token g hvalid hfind).right.left
  | some sub =>
    have hsome : ((model κ).find g token).isSome := by simp [model, hfind]
    apply (laws.unsubscribe_some token g hvalid hsome).right.left

end Events

namespace World

structure Inv (w : World κ) : Prop where
  sessions : w.sessions.Numbered
  decompiler : Tokens (Decompiler.ScopedSubscription.guard κ) Decompiler.Callbacks.Valid
    Decompiler.Callbacks.live Decompiler.Callbacks.nextToken w.decompiler w.decompilerTokens
  events : Tokens (Events.ScopedSubscription.guard κ) Events.Globals.Valid
    Events.Globals.live Events.Globals.nextToken w.events w.eventTokens

theorem inv_subscribeDecompiler {w : World κ} (hinv : w.Inv) (request : Decompiler.Request κ)
    (answers : Decompiler.Globals.Answers)
    : (w.step (.subscribeDecompiler request answers)).Inv := by
  refine ⟨?_, ?_, hinv.events⟩
  . have hguarded := hinv.sessions.step (.guarded answers.loaded)
    simp only [step]
    rcases request.lifecycle_run answers w.globals with heq | heq
    . rw [heq]
      apply hinv.sessions
    . rw [heq]
      apply hguarded
  . have hvalid := hinv.decompiler.owned.valid
    simp only [step]
    rcases request.run_cases answers w.globals with ⟨e, herror, hsame⟩ | ⟨callback, _, htoken, hregister⟩
    . rw [herror, hsame]
      simp only [Except.toOption, Option.toList_none, List.append_nil]
      apply hinv.decompiler
    . have hdistinct : Decompiler.Callbacks.Distinct
          { w.decompiler.system with hexraysCallbackInstalled := true } :=
        ⟨hvalid.pos, hvalid.keys, hvalid.disjoint⟩
      rw [htoken, hregister]
      apply hinv.decompiler.subscribe
      . apply Decompiler.Callbacks.valid_register hdistinct rfl
      . intro t
        unfold Decompiler.Callbacks.live
        have hfind := Decompiler.Callbacks.find_register hdistinct rfl request.subscription.1
          callback t
        simp only [globals, hfind]
        by_cases h : t = w.decompiler.system.nextToken
        . simp [h]
        . simp only [h, false_or]
          rfl
      . rfl

theorem inv_subscribeEvent {w : World κ} (hinv : w.Inv) (request : Events.Request κ)
    : (w.step (.subscribeEvent request)).Inv := by
  refine ⟨hinv.sessions, hinv.decompiler, ?_⟩
  have hvalid := hinv.events.owned.valid
  have htoken : (request.run w.events.system).1 = .ok w.events.system.nextToken := by
    rcases w.events.system.ensureListener_eq with ⟨hnext, _, _⟩
    simp only [Events.Request.run_eq, Events.Globals.subscribe, hnext]
  rcases Events.laws.subscribe_ok request w.events.system _ hvalid htoken with ⟨_, hnext, hfind⟩
  simp only [step, htoken]
  apply hinv.events.subscribe
  . apply request.valid_run _ hvalid
  . intro t
    have hfindt := hfind t
    simp only [Events.model] at hfindt
    unfold Events.Globals.live
    rw [hfindt]
    by_cases h : t = w.events.system.nextToken <;> simp [h]
  . apply hnext

theorem inv_step {w : World κ} (hinv : w.Inv) {op : WorldOp κ} (hhands : w.HandsOver op)
    : (w.step op).Inv := by
  cases op with
  | lifecycle op => exact ⟨hinv.sessions.step op, hinv.decompiler, hinv.events⟩
  | subscribeDecompiler request answers => apply inv_subscribeDecompiler hinv
  | guardDecompiler token =>
    refine ⟨hinv.sessions, ?_, hinv.events⟩
    apply hinv.decompiler.adopt
    intro r howns
    simp only [Decompiler.ScopedSubscription.guard, Decompiler.ScopedSubscription.owns] at howns
    split at howns
    . cases howns
    . next hne =>
      cases howns
      apply hhands.resolve_left hne
  | decompiler op =>
    refine ⟨hinv.sessions, ?_, hinv.events⟩
    apply hinv.decompiler.step
    . exact fun token s hvalid => Decompiler.Callbacks.valid_unsubscribe hvalid token
    . exact fun token s hvalid hlive => Decompiler.Callbacks.live_unsubscribe hvalid hlive
    . exact fun token s hvalid => Decompiler.Callbacks.nextToken_unsubscribe hvalid token
  | subscribeEvent request => apply inv_subscribeEvent hinv
  | guardEvent token =>
    refine ⟨hinv.sessions, hinv.decompiler, ?_⟩
    apply hinv.events.adopt
    intro r howns
    simp only [Events.ScopedSubscription.guard, Events.ScopedSubscription.owns] at howns
    split at howns
    . cases howns
    . next hne =>
      cases howns
      apply hhands.resolve_left hne
  | event op =>
    refine ⟨hinv.sessions, hinv.decompiler, ?_⟩
    apply hinv.events.step
    . exact fun token g hvalid => Events.Globals.valid_unsubscribe token g hvalid
    . exact fun token g hvalid hlive => Events.Globals.live_unsubscribe hvalid hlive
    . exact fun token g hvalid => Events.Globals.nextToken_unsubscribe hvalid token

theorem inv_initial : (({} : World κ)).Inv where
  sessions := ⟨Decompiler.SessionProgram.inv_initial, List.Perm.refl _, rfl⟩
  decompiler := by
    refine ⟨⟨List.Perm.refl _, List.nodup_nil, Decompiler.Callbacks.valid_initial, ?_, ?_⟩,
      ?_, ?_, ?_⟩ <;> simp [Guards.held]
  events := by
    refine ⟨⟨List.Perm.refl _, List.nodup_nil, Events.Globals.valid_initial, ?_, ?_⟩,
      ?_, ?_, ?_⟩ <;> simp [Guards.held]

theorem inv_run {w : World κ} (hinv : w.Inv) (ops : List (WorldOp κ))
    (hops : Machine.Guarded step HandsOver w ops) : (Machine.run step w ops).Inv := by
  induction ops generalizing w with
  | nil => apply hinv
  | cons op ops ih => apply ih (inv_step hinv hops.left) hops.right

end World

end Invariant

section Ownership

namespace World

structure OwnedOnce (w : World κ) : Prop where
  sessions : Guards.ReleasedOnce Decompiler.ScopedSession.guard w.sessions
  decompiler : Guards.ReleasedOnce (Decompiler.ScopedSubscription.guard κ) w.decompiler
  events : Guards.ReleasedOnce (Events.ScopedSubscription.guard κ) w.events
  count : w.sessions.system.scopedSessionCount
    = w.sessions.objects.countP (·.any Decompiler.ScopedSession.active)
  decompiler_live : ∀ t ∈ w.decompiler.acquired,
    w.decompiler.system.live t ↔ t ∈ Guards.held (Decompiler.ScopedSubscription.guard κ) w.decompiler
  events_live : ∀ t ∈ w.events.acquired,
    w.events.system.live t ↔ t ∈ Guards.held (Events.ScopedSubscription.guard κ) w.events

theorem Inv.ownedOnce {w : World κ} (hinv : w.Inv) : w.OwnedOnce := by
  constructor
  case sessions =>
    apply hinv.sessions.balanced.releasedOnce
    rw [hinv.sessions.acquired]
    apply List.nodup_range
  case decompiler =>
    apply hinv.decompiler.owned.balanced.releasedOnce hinv.decompiler.owned.nodup
  case events => apply hinv.events.owned.balanced.releasedOnce hinv.events.owned.nodup
  case count =>
    rw [← Decompiler.SessionProgram.length_held]
    apply hinv.sessions.inv.count
  case decompiler_live => apply hinv.decompiler.owned.live_iff_held
  case events_live => apply hinv.events.owned.live_iff_held

/--
In every run that hands each token to one guard at most, no session and no token has two owners or
is released twice, and what the guards do not hold any more was released.
-/
theorem ownedOnce_run (ops : List (WorldOp κ)) (hops : Machine.Guarded step HandsOver {} ops)
    : (Machine.run step {} ops).OwnedOnce := by
  apply Inv.ownedOnce
  apply inv_run inv_initial ops hops

def twoTokens : List (WorldOp Unit) :=
  [.subscribeDecompiler (.onCurposChanged (some ())) ⟨true, true⟩, .guardDecompiler 1,
    .subscribeEvent (.onSegmentAdded (some ())), .guardEvent 1, .decompiler (.moveConstruct 0),
    .event (.destroy 0), .lifecycle (.openSession true), .lifecycle (.session (.close 0))]

theorem ownedOnce_twoTokens : (Machine.run step {} twoTokens).OwnedOnce := by
  apply ownedOnce_run
  simp only [twoTokens, Machine.Guarded, HandsOver, true_and, and_true]
  decide

theorem not_ownedOnce_sharedToken
    : ¬ (Machine.run step ({} : World Unit)
        [.subscribeEvent (.onSegmentAdded (some ())), .guardEvent 1, .guardEvent 1]).OwnedOnce
      ∧ ¬ (Machine.run step ({} : World Unit)
        [.guardEvent 1, .event (.destroy 0), .subscribeEvent (.onSegmentAdded (some ()))]).OwnedOnce := by
  constructor
  . intro honce
    have hsame := honce.events.owner_unique 0 1 ⟨1⟩ ⟨1⟩ 1 rfl rfl rfl rfl
    cases hsame
  . intro honce
    have hheld := (honce.events_live 1 (by decide)).mp rfl
    revert hheld
    decide

end World

end Ownership

end Idax
