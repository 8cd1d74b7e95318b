import Idax.Library.Machine
import Idax.Library.Subscriptions
import Mathlib.Data.List.Pairwise

/-!
Dispatchers that call the handlers of a notification from a copy. Calls on the registry and further
notifications come at any time between two handlers. A handler that is removed is not called any
more exactly when it is not waiting in a copy at the time.
-/

namespace Snapshot

/--
`removed` are the keys of the subscriptions that a call removes, and `stops` says for which result
of a handler a dispatcher leaves out the rest.
-/
structure Model (ρ : Type u) (α : Type v) (ν : Type w) (ε : Type x) (κ : Type y) (β : Type z) where
  perform : α → ρ → ρ
  removed : α → ρ → List κ
  matched : ν → ρ → List ε
  key : ε → κ
  stops : ν → β → Bool

structure Dispatch (ν : Type w) (ε : Type x) where
  notification : ν
  running : Option ε := none
  waiting : List ε

inductive Entry (κ : Type y) where
  | removed (key : κ)
  | invoked (key : κ)
  deriving DecidableEq, Repr

structure State (ρ : Type u) (ν : Type w) (ε : Type x) (κ : Type y) where
  registry : ρ
  dispatches : List (Dispatch ν ε) := []
  log : List (Entry κ) := []

/--
`next` ends the running handler of a dispatch, if there is one, and goes on with the next one.
-/
inductive Action (α : Type v) (ν : Type w) (β : Type z) where
  | call (call : α)
  | notify (notification : ν)
  | next (i : Nat) (result : β)

variable {ρ : Type u} {α : Type v} {ν : Type w} {ε : Type x} {κ : Type y} {β : Type z}
variable (m : Model ρ α ν ε κ β)

def next (i : Nat) (result : β) (s : State ρ ν ε κ) : State ρ ν ε κ :=
  match s.dispatches[i]? with
  | none => s
  | some d =>
    if d.running.isSome && m.stops d.notification result then
      { s with dispatches := s.dispatches.eraseIdx i }
    else
      match d.waiting with
      | [] => { s with dispatches := s.dispatches.eraseIdx i }
      | e :: rest => { s with
          dispatches := s.dispatches.set i { d with running := some e, waiting := rest }
          log := s.log ++ [.invoked (m.key e)]
        }

def step (s : State ρ ν ε κ) : Action α ν β → State ρ ν ε κ
  | .call a => { s with
      registry := m.perform a s.registry
      log := s.log ++ (m.removed a s.registry).map .removed
    }
  | .notify n => { s with
      dispatches := s.dispatches ++ [{ notification := n, waiting := m.matched n s.registry }]
    }
  | .next i result => next m i result s

def Final (s : State ρ ν ε κ) : Prop :=
  s.log.Pairwise fun e e' => ∀ k, e = .removed k → e' ≠ .invoked k

def Settles (s : State ρ ν ε κ) : Prop :=
  ∀ turns : List (Nat × β),
    Final (Machine.run (step m) s (turns.map fun turn => .next turn.1 turn.2))

def KeepsWaiting (s : State ρ ν ε κ) : Action α ν β → Prop
  | .call a => ∀ d ∈ s.dispatches, ∀ e ∈ d.waiting, m.key e ∉ m.removed a s.registry
  | _ => True

theorem not_final_of_log {s : State ρ ν ε κ} (first second : κ)
    (hlog : s.log = [.invoked first, .removed second, .invoked second]) : ¬ Final s := by
  intro hfinal
  unfold Final at hfinal
  rw [hlog] at hfinal
  simp at hfinal

section Turns

def Undisturbed (s : State ρ ν ε κ) : Prop :=
  ∀ d ∈ s.dispatches, ∀ e ∈ d.waiting, .removed (m.key e) ∉ s.log

variable {m}

theorem next_cases (i : Nat) (result : β) (s : State ρ ν ε κ)
    : (∃ dispatches, (∀ d ∈ dispatches, d ∈ s.dispatches)
        ∧ next m i result s = { s with dispatches := dispatches })
      ∨ ∃ d ∈ s.dispatches, ∃ e rest, d.waiting = e :: rest
        ∧ next m i result s = { s with
            dispatches := s.dispatches.set i { d with running := some e, waiting := rest }
            log := s.log ++ [.invoked (m.key e)]
          } := by
  unfold next
  cases hget : s.dispatches[i]? with
  | none => exact Or.inl ⟨s.dispatches, fun _ hd => hd, rfl⟩
  | some d =>
    have herase : ∀ d ∈ s.dispatches.eraseIdx i, d ∈ s.dispatches :=
      fun _ hd => List.mem_of_mem_eraseIdx hd
    simp only
    split
    . exact Or.inl ⟨_, herase, rfl⟩
    . cases hwaiting : d.waiting with
      | nil => exact Or.inl ⟨_, herase, rfl⟩
      | cons e rest =>
        exact Or.inr ⟨d, List.mem_of_getElem? hget, e, rest, hwaiting, rfl⟩

theorem undisturbed_next {s : State ρ ν ε κ} (hwait : Undisturbed m s) (hfinal : Final s) (i : Nat)
    (result : β) : Undisturbed m (next m i result s) ∧ Final (next m i result s) := by
  rcases next_cases (m := m) i result s with ⟨dispatches, hsub, heq⟩ | ⟨d, hd, e, rest, hrest, heq⟩
  . rw [heq]
    exact ⟨fun d hd => hwait d (hsub d hd), hfinal⟩
  . have hhead : .removed (m.key e) ∉ s.log := by
      apply hwait d hd e
      simp [hrest]
    rw [heq]
    constructor
    . intro d' hd' e' he'
      simp only [List.mem_append, List.mem_singleton, reduceCtorEq, or_false]
      rcases List.mem_or_eq_of_mem_set hd' with hold | rfl
      . apply hwait d' hold e' he'
      . apply hwait d hd e'
        rw [hrest]
        apply List.mem_cons_of_mem e he'
    . apply List.pairwise_append.mpr
      refine ⟨hfinal, List.pairwise_singleton _ _, ?_⟩
      intro entry hentry entry' hentry' k hk hk'
      rw [List.mem_singleton.mp hentry'] at hk'
      cases hk'
      apply hhead
      rw [← hk]
      apply hentry

theorem log_turns {s : State ρ ν ε κ} {i : Nat} {d : Dispatch ν ε}
    (hget : s.dispatches[i]? = some d) {result : β} (hstops : m.stops d.notification result = false)
    (front : List ε) {back : List ε} (hwaiting : d.waiting = front ++ back)
    : (Machine.run (step m) s (List.replicate front.length (.next i result))).log
      = s.log ++ front.map fun e => .invoked (m.key e) := by
  induction front generalizing s d with
  | nil => simp [Machine.run]
  | cons e front ih =>
    have hturn : step m s (.next i result) = { s with
        dispatches := s.dispatches.set i { d with running := some e, waiting := front ++ back }
        log := s.log ++ [.invoked (m.key e)]
      } := by
      simp only [step, next, hget, hstops, hwaiting, Bool.and_false, Bool.false_eq_true, if_false,
        List.cons_append]
    have hlt : i < s.dispatches.length := (List.getElem?_eq_some_iff.mp hget).choose
    simp only [List.length_cons, List.replicate_succ, Machine.run, hturn]
    rw [ih (d := { d with running := some e, waiting := front ++ back })]
    . simp
    . simp [hlt]
    . apply hstops
    . rfl

theorem settles_iff (hstops : ∀ n, ∃ result, m.stops n result = false) (s : State ρ ν ε κ)
    : Settles m s ↔ Undisturbed m s ∧ Final s := by
  constructor
  . intro hsettles
    refine ⟨?_, hsettles []⟩
    intro d hd e he hremoved
    rcases List.mem_iff_getElem?.mp hd with ⟨i, hget⟩
    rcases List.append_of_mem he with ⟨front, back, hwaiting⟩
    rcases hstops d.notification with ⟨result, hresult⟩
    have hlog := log_turns hget hresult (front ++ [e]) (by simpa using hwaiting)
    have hfinal := hsettles (List.replicate (front ++ [e]).length (i, result))
    unfold Final at hfinal
    rw [List.map_replicate, hlog, List.pairwise_append] at hfinal
    apply hfinal.right.right _ hremoved (.invoked (m.key e)) _ _ rfl rfl
    simp
  . rintro ⟨hwait, hfinal⟩ turns
    induction turns generalizing s with
    | nil => apply hfinal
    | cons turn turns ih =>
      have hnext := undisturbed_next hwait hfinal turn.1 turn.2
      apply ih _ hnext.left hnext.right

end Turns

section Run

structure Laws (valid : ρ → Prop) (allowed : ρ → α → Prop) (gone : ρ → κ → Prop) : Prop where
  valid_perform : ∀ a r, valid r → allowed r a → valid (m.perform a r)
  gone_perform : ∀ a r, valid r → allowed r a → ∀ k, gone r k → gone (m.perform a r) k
  gone_removed : ∀ a r, valid r → allowed r a → ∀ k ∈ m.removed a r, gone (m.perform a r) k
  matched : ∀ n r, valid r → ∀ e ∈ m.matched n r, ¬ gone r (m.key e)

variable {m} {valid : ρ → Prop} {allowed : ρ → α → Prop} {gone : ρ → κ → Prop}

structure Kept (valid : ρ → Prop) (gone : ρ → κ → Prop) (s : State ρ ν ε κ) : Prop where
  valid : valid s.registry
  gone : ∀ k, .removed k ∈ s.log → gone s.registry k

def Allowed (allowed : ρ → α → Prop) (s : State ρ ν ε κ) : Action α ν β → Prop
  | .call a => allowed s.registry a
  | _ => True

theorem guarded_allowed (s : State ρ ν ε κ) (actions : List (Action α ν β))
    : Machine.Guarded (step m) (Allowed fun _ _ => True) s actions := by
  apply Machine.guarded_of_forall
  intro s action
  cases action <;> trivial

theorem kept_step (hlaws : Laws m valid allowed gone) {s : State ρ ν ε κ}
    (hkept : Kept valid gone s) {action : Action α ν β} (hallowed : Allowed allowed s action)
    : Kept valid gone (step m s action) := by
  cases action with
  | call a =>
    refine ⟨hlaws.valid_perform a s.registry hkept.valid hallowed, ?_⟩
    intro k hk
    simp only [step, List.mem_append, List.mem_map, Entry.removed.injEq, exists_eq_right] at hk
    rcases hk with hold | hnew
    . apply hlaws.gone_perform a s.registry hkept.valid hallowed
      apply hkept.gone k hold
    . apply hlaws.gone_removed a s.registry hkept.valid hallowed k hnew
  | notify n => exact ⟨hkept.valid, hkept.gone⟩
  | next i result =>
    simp only [step]
    rcases next_cases (m := m) i result s with ⟨_, _, heq⟩ | ⟨_, _, e, _, _, heq⟩
    . rw [heq]
      exact ⟨hkept.valid, hkept.gone⟩
    . rw [heq]
      refine ⟨hkept.valid, ?_⟩
      intro k hk
      simp only [List.mem_append, List.mem_singleton, reduceCtorEq, or_false] at hk
      apply hkept.gone k hk

theorem undisturbed_step (hlaws : Laws m valid allowed gone) {s : State ρ ν ε κ}
    (hkept : Kept valid gone s) (hwait : Undisturbed m s) (hfinal : Final s)
    (action : Action α ν β)
    : (Undisturbed m (step m s action) ∧ Final (step m s action)) ↔ KeepsWaiting m s action := by
  cases action with
  | call a =>
    have hlog : Final (step m s (.call a)) := by
      apply List.pairwise_append.mpr
      refine ⟨hfinal, ?_, ?_⟩
      . rw [List.pairwise_map]
        apply List.pairwise_of_forall
        simp
      . intro entry _ entry' hentry' k _
        rcases List.mem_map.mp hentry' with ⟨k', _, rfl⟩
        simp
    rw [and_iff_left hlog]
    simp only [Undisturbed, KeepsWaiting, step, List.mem_append, List.mem_map,
      Entry.removed.injEq, exists_eq_right, not_or]
    constructor
    . intro hnew d hd e he
      apply (hnew d hd e he).right
    . intro hkeeps d hd e he
      exact ⟨hwait d hd e he, hkeeps d hd e he⟩
  | notify n =>
    simp only [KeepsWaiting, iff_true]
    refine ⟨?_, hfinal⟩
    intro d hd e he hremoved
    rcases List.mem_append.mp hd with hold | hnew
    . apply hwait d hold e he hremoved
    . rw [List.mem_singleton.mp hnew] at he
      apply hlaws.matched n s.registry hkept.valid e he
      apply hkept.gone _ hremoved
  | next i result =>
    simp only [KeepsWaiting, iff_true]
    apply undisturbed_next hwait hfinal

/--
A run calls no removed handler, and leaves none to be called, exactly when no call of it removes a
handler that waits.
-/
theorem always_settles_iff (hlaws : Laws m valid allowed gone)
    (hstops : ∀ n, ∃ result, m.stops n result = false) {r : ρ} (hvalid : valid r)
    {actions : List (Action α ν β)}
    (hallowed : Machine.Guarded (step m) (Allowed allowed) { registry := r } actions)
    : Machine.Always (step m) (Settles m) { registry := r } actions
      ↔ Machine.Guarded (step m) (KeepsWaiting m) { registry := r } actions := by
  apply Machine.always_iff_guarded_of_allowed (J := Kept valid gone) (A := Allowed allowed)
  . intro s action hkept ha
    apply kept_step hlaws hkept ha
  . intro s action hkept _ hsettles
    rcases (settles_iff hstops s).mp hsettles with ⟨hwait, hfinal⟩
    rw [settles_iff hstops]
    apply undisturbed_step hlaws hkept hwait hfinal
  . exact ⟨hvalid, by simp⟩
  . rw [settles_iff hstops]
    exact ⟨by simp [Undisturbed], List.Pairwise.nil⟩
  . apply hallowed

end Run

section Tokens

variable {ε' : Type t} {σ : Type t'} {γ : Type t''}

def ofRegistry (r : Subscriptions.Model ε' ρ α σ γ) (matched : ν → ρ → List ε) (token : ε → Nat)
    (stops : ν → β → Bool) : Model ρ (Subscriptions.Call α) ν ε Nat β where
  perform := fun call s => (Subscriptions.step r { registry := s } call).registry
  removed := fun call s =>
    match call with
    | .subscribe _ => []
    | .unsubscribe t => (r.unsubscribe t s).1.toOption.toList.map fun _ => t
  matched := matched
  key := token
  stops := stops

theorem laws_ofRegistry {r : Subscriptions.Model ε' ρ α σ γ} {valid : ρ → Prop} {next : ρ → Nat}
    (hlaws : Subscriptions.Laws r valid next)
    (hcore : ∀ s s', r.core s' = r.core s → r.find s' = r.find s)
    {matched : ν → ρ → List ε} {token : ε → Nat} {stops : ν → β → Bool}
    (hmatched : ∀ n s, valid s → ∀ e ∈ matched n s, (r.find s (token e)).isSome)
    : Laws (ofRegistry r matched token stops) valid (fun _ _ => True)
        (Subscriptions.Spent r next) := by
  constructor
  case valid_perform =>
    intro call s hvalid _
    apply (Subscriptions.kept_step hlaws (h := { registry := s }) _ call).valid
    exact ⟨hvalid, by simp, by simp⟩
  case gone_perform =>
    intro call s hvalid _ t hspent
    apply Subscriptions.spent_step hlaws hcore (h := { registry := s }) hvalid call hspent
  case gone_removed =>
    intro call s hvalid _ t hremoved
    cases call with
    | subscribe a => cases hremoved
    | unsubscribe token =>
      simp only [ofRegistry, List.mem_map] at hremoved
      rcases hremoved with ⟨⟨⟩, hok, rfl⟩
      apply Subscriptions.spent_unsubscribe hlaws hvalid
      cases hresult : (r.unsubscribe token s).1 with
      | error e => simp [hresult, Except.toOption] at hok
      | ok _ => rfl
  case matched =>
    intro n s hvalid e he hspent
    have hsome := hmatched n s hvalid e he
    have hnone : r.find s (token e) = none := hspent.right
    rw [hnone] at hsome
    cases hsome

end Tokens

end Snapshot
