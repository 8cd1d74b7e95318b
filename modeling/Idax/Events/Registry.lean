import Mathlib.Data.Nat.Basic
import Idax.Address
import Idax.Error
import Idax.Library.OrderedMap

/-!
This module contains the subscriptions of `ida::event`: the map from tokens to subscriptions and the
one listener that is hooked as long as there are any. Callbacks are named by values of `κ`, what
they do is said where they are called.
-/

namespace Idax
namespace Events

inductive CallbackKind where
  | segmentAdded
  | segmentDeleted
  | functionAdded
  | functionDeleted
  | renamed
  | bytePatched
  | commentChanged
  | generic
  deriving DecidableEq, Repr

inductive EventKind where
  | segmentAdded
  | segmentDeleted
  | functionAdded
  | functionDeleted
  | renamed
  | bytePatched
  | commentChanged
  deriving DecidableEq, Repr

structure Event where
  kind : EventKind := .segmentAdded
  address : Address := badAddress
  secondaryAddress : Address := badAddress
  newName : String := ""
  oldName : String := ""
  oldValue : UInt32 := 0
  repeatable : Bool := false
  deriving DecidableEq, Repr

structure Subscription (κ : Type u) where
  kind : CallbackKind
  onAddr : Option κ := none
  onAddr2 : Option κ := none
  onRenamed : Option κ := none
  onPatched : Option κ := none
  onComment : Option κ := none
  filter : Option κ := none
  onEvent : Option κ := none

/--
The global variables of `ida::event`. Listeners are numbered in the order they are created. The tokens,
which the source counts in 64 bits, do not run out.
-/
structure Globals (κ : Type u) where
  nextToken : Nat
  subscriptions : OrderedMap Nat (Subscription κ)
  listener : Option Nat
  created : Nat

namespace Globals

variable {κ : Type u}

def initial : Globals κ where
  nextToken := 1
  subscriptions := .empty
  listener := none
  created := 0

def ensureListener (g : Globals κ) : Globals κ :=
  match g.listener with
  | none => { g with listener := some g.created, created := g.created + 1 }
  | some _ => g

def subscribe (sub : Subscription κ) (g : Globals κ) : Result Nat × Globals κ :=
  let g := g.ensureListener
  let t := g.nextToken
  (.ok t, { g with nextToken := t + 1, subscriptions := g.subscriptions.insert t sub })

def onSegmentAdded (callback : Option κ) : Globals κ → Result Nat × Globals κ :=
  subscribe { kind := .segmentAdded, onAddr := callback }

def onSegmentDeleted (callback : Option κ) : Globals κ → Result Nat × Globals κ :=
  subscribe { kind := .segmentDeleted, onAddr2 := callback }

def onFunctionAdded (callback : Option κ) : Globals κ → Result Nat × Globals κ :=
  subscribe { kind := .functionAdded, onAddr := callback }

def onFunctionDeleted (callback : Option κ) : Globals κ → Result Nat × Globals κ :=
  subscribe { kind := .functionDeleted, onAddr := callback }

def onRenamed (callback : Option κ) : Globals κ → Result Nat × Globals κ :=
  subscribe { kind := .renamed, onRenamed := callback }

def onBytePatched (callback : Option κ) : Globals κ → Result Nat × Globals κ :=
  subscribe { kind := .bytePatched, onPatched := callback }

def onCommentChanged (callback : Option κ) : Globals κ → Result Nat × Globals κ :=
  subscribe { kind := .commentChanged, onComment := callback }

def onEvent (callback : Option κ) : Globals κ → Result Nat × Globals κ :=
  subscribe { kind := .generic, onEvent := callback }

def onEventFiltered (filter callback : Option κ) : Globals κ → Result Nat × Globals κ :=
  subscribe { kind := .generic, filter := filter, onEvent := callback }

def unsubscribe (token : Nat) (g : Globals κ) : Status × Globals κ :=
  match g.subscriptions.find? token with
  | none => (.error (.notFound "Subscription not found" (toString token)), g)
  | some _ =>
    let g := { g with subscriptions := g.subscriptions.erase token }
    -- The last subscription takes the listener with it, also when it is the listener that runs.
    if g.subscriptions.isEmpty && g.listener.isSome then
      (ok, { g with listener := none })
    else
      (ok, g)

structure Valid (g : Globals κ) : Prop where
  lt_nextToken : ∀ t ∈ g.subscriptions.keys, t < g.nextToken
  listener_iff : g.listener.isSome ↔ ∃ t, t ∈ g.subscriptions.keys
  listener_lt : ∀ l, g.listener = some l → l < g.created

theorem valid_initial : (initial : Globals κ).Valid := by
  constructor
  case lt_nextToken => simp [initial]
  case listener_iff => simp [initial]
  case listener_lt => simp [initial]

theorem ensureListener_eq (g : Globals κ)
    : g.ensureListener.nextToken = g.nextToken
      ∧ g.ensureListener.subscriptions = g.subscriptions
      ∧ g.ensureListener.listener = some (g.listener.getD g.created) := by
  unfold ensureListener
  cases hlistener : g.listener <;> simp [hlistener]

theorem valid_subscribe (sub : Subscription κ) (g : Globals κ) (h : g.Valid)
    : (g.subscribe sub).2.Valid := by
  rcases g.ensureListener_eq with ⟨htoken, hsubs, hlistener⟩
  simp only [subscribe]
  constructor
  case lt_nextToken =>
    intro t ht
    simp only [OrderedMap.mem_keys_insert, htoken, hsubs] at ht ⊢
    rcases ht with heq | ht
    . omega
    . have := h.lt_nextToken t ht
      omega
  case listener_iff =>
    simp [hlistener]
  case listener_lt =>
    intro l
    simp only [ensureListener]
    cases hold : g.listener with
    | none =>
      simp only [Option.some.injEq]
      omega
    | some l' =>
      intro hl
      apply h.listener_lt l
      simpa using hl

theorem valid_unsubscribe (token : Nat) (g : Globals κ) (h : g.Valid)
    : (g.unsubscribe token).2.Valid := by
  unfold unsubscribe
  split
  . apply h
  . next hfind =>
    have herased : ∀ t ∈ (g.subscriptions.erase token).keys, t < g.nextToken := by
      intro t ht
      rw [OrderedMap.mem_keys_erase] at ht
      apply h.lt_nextToken t ht.left
    have hhooked : g.listener.isSome := by
      rw [h.listener_iff]
      exact ⟨token, OrderedMap.mem_keys_of_find? hfind⟩
    by_cases hempty : (g.subscriptions.erase token).keys = []
    . simp only [(OrderedMap.isEmpty_iff _).mpr hempty, hhooked, Bool.and_self, if_true]
      constructor
      case lt_nextToken => exact herased
      case listener_iff => simp [hempty]
      case listener_lt => simp
    . have hnonempty : (g.subscriptions.erase token).isEmpty = false := by
        rw [Bool.eq_false_iff]
        simpa [OrderedMap.isEmpty_iff] using hempty
      simp only [hnonempty, Bool.false_and, Bool.false_eq_true, if_false]
      constructor
      case lt_nextToken => exact herased
      case listener_iff =>
        simp only [hhooked, true_iff]
        apply List.exists_mem_of_ne_nil _ hempty
      case listener_lt => exact h.listener_lt

end Globals

structure Registry (κ : Type u) extends Globals κ where
  valid : toGlobals.Valid

namespace Registry

variable {κ : Type u}

def initial : Registry κ :=
  ⟨.initial, Globals.valid_initial⟩

def subscribe (sub : Subscription κ) (r : Registry κ) : Result Nat × Registry κ :=
  let result := r.toGlobals.subscribe sub
  (result.1, ⟨result.2, Globals.valid_subscribe sub r.toGlobals r.valid⟩)

def unsubscribe (token : Nat) (r : Registry κ) : Status × Registry κ :=
  let result := r.toGlobals.unsubscribe token
  (result.1, ⟨result.2, Globals.valid_unsubscribe token r.toGlobals r.valid⟩)

def tokens (r : Registry κ) : List Nat :=
  r.subscriptions.keys

end Registry

end Events
end Idax
