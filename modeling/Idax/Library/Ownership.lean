import Mathlib.Algebra.Order.Group.Multiset

/-!
Blocks of memory that a program requests and gives back. A request may be refused, and a block that
is given back although it is not live stops the program. What a part of the program needs of the live
blocks and what it leaves there is said by a triple, whatever other blocks there are.
-/

namespace Ownership

structure Heap where
  live : Multiset Nat := 0
  requests : Nat := 0

/--
A computation on the heap that has no result where its behaviour is not defined.
-/
abbrev Mem := StateT Heap Option

structure Block (β : Type u) where
  address : Nat
  contents : β
  deriving DecidableEq, Repr

abbrev Ptr (β : Type u) := Option (Block β)

def fault : Mem α :=
  fun _ => none

/--
A request gets a block of a new address, unless it is one of those refused.
-/
def malloc (refused : Nat → Bool) : Mem (Option Nat) := fun h =>
  if refused h.requests then
    some (none, { h with requests := h.requests + 1 })
  else
    some (some h.requests, { live := h.requests ::ₘ h.live, requests := h.requests + 1 })

def free : Option Nat → Mem Unit
  | none => pure ()
  | some address => fun h =>
    if address ∈ h.live then
      some ((), { h with live := h.live.erase address })
    else
      none

def box : Mem Nat := fun h =>
  some (h.requests, { live := h.requests ::ₘ h.live, requests := h.requests + 1 })

def touch (address : Nat) : Mem Unit := fun h =>
  if address ∈ h.live then
    some ((), h)
  else
    none

def Ptr.address (p : Ptr β) : Option Nat :=
  p.map Block.address

def store (refused : Nat → Bool) (contents : β) : Mem (Ptr β) := do
  let p ← malloc refused
  return p.map fun address => { address, contents }

def held (p : Option Nat) : Multiset Nat :=
  p.elim 0 ({·})

/--
Next to any other blocks, `m` comes to an end where the blocks `pre` are live, and then those of
`post` are.
-/
def Triple (pre : Multiset Nat) (m : Mem α) (post : α → Multiset Nat → Prop) : Prop :=
  ∀ rest requests, ∃ a h, m { live := rest + pre, requests } = some (a, h)
    ∧ ∃ blocks, h.live = rest + blocks ∧ post a blocks

theorem bind_of_eq {m : Mem α} {f : α → Mem β} {a : α} {h h' : Heap} (hm : m h = some (a, h'))
    : (m >>= f) h = f a h' := by
  show Option.bind (m h) _ = _
  rw [hm]
  rfl

theorem bind_of_eq_none {m : Mem α} {f : α → Mem β} {h : Heap} (hm : m h = none)
    : (m >>= f) h = none := by
  show Option.bind (m h) _ = _
  rw [hm]
  rfl

@[simp]
theorem held_none : held none = 0 :=
  rfl

@[simp]
theorem held_some (address : Nat) : held (some address) = {address} :=
  rfl

namespace Triple

variable {pre : Multiset Nat} {m : Mem α} {post : α → Multiset Nat → Prop}

theorem pure {a : α} (h : post a pre) : Triple pre (pure a) post := by
  intro rest requests
  exact ⟨a, _, rfl, pre, rfl, h⟩

theorem bind {f : α → Mem β} {post : β → Multiset Nat → Prop} {mid : α → Multiset Nat → Prop}
    (hm : Triple pre m mid) (hf : ∀ a blocks, mid a blocks → Triple blocks (f a) post)
    : Triple pre (m >>= f) post := by
  intro rest requests
  rcases hm rest requests with ⟨a, h, hrun, blocks, hlive, hmid⟩
  rcases hf a blocks hmid rest h.requests with ⟨b, h', hrun', hpost⟩
  refine ⟨b, h', ?_, hpost⟩
  rw [← hlive] at hrun'
  show Option.bind (m _) _ = _
  rw [hrun]
  exact hrun'

theorem consequence {post' : α → Multiset Nat → Prop} (hm : Triple pre m post)
    (h : ∀ a blocks, post a blocks → post' a blocks) : Triple pre m post' := by
  intro rest requests
  rcases hm rest requests with ⟨a, h', hrun, blocks, hlive, hpost⟩
  exact ⟨a, h', hrun, blocks, hlive, h a blocks hpost⟩

theorem frame (hm : Triple pre m post) (other : Multiset Nat)
    : Triple (pre + other) m (fun a blocks => ∃ blocks', post a blocks' ∧ blocks = blocks' + other) := by
  intro rest requests
  rcases hm (rest + other) requests with ⟨a, h', hrun, blocks, hlive, hpost⟩
  refine ⟨a, h', ?_, blocks + other, ?_, blocks, hpost, rfl⟩
  . rw [← hrun, Multiset.add_comm pre, ← Multiset.add_assoc]
  . rw [hlive, Multiset.add_assoc, Multiset.add_comm other]

theorem call {f : α → Mem β} {post : β → Multiset Nat → Prop} {mid : α → Multiset Nat → Prop}
    {other all : Multiset Nat} (hm : Triple pre m mid) (hall : all = pre + other)
    (hf : ∀ a blocks, mid a blocks → Triple (blocks + other) (f a) post)
    : Triple all (m >>= f) post := by
  rw [hall]
  apply bind (hm.frame other)
  rintro a _ ⟨blocks, hmid, rfl⟩
  exact hf a blocks hmid

theorem run (hm : Triple 0 m post) (h : Heap)
    : ∃ a h', m h = some (a, h') ∧ ∃ blocks, h'.live = h.live + blocks ∧ post a blocks := by
  have hrun := hm h.live h.requests
  rw [Multiset.add_zero] at hrun
  exact hrun

end Triple

theorem triple_malloc (refused : Nat → Bool)
    : Triple 0 (malloc refused)
        (fun p blocks => blocks = held p ∧ (p = none → ∃ k, refused k = true)) := by
  intro rest requests
  unfold malloc
  rw [Multiset.add_zero]
  cases hrefused : refused requests with
  | true => exact ⟨none, _, rfl, 0, (Multiset.add_zero rest).symm, rfl, fun _ => ⟨_, hrefused⟩⟩
  | false =>
    refine ⟨some requests, _, rfl, {requests}, ?_, rfl, ?_⟩
    . rw [Multiset.add_comm]
      rfl
    . intro hnone
      cases hnone

theorem triple_free (p : Option Nat) : Triple (held p) (free p) (fun _ blocks => blocks = 0) := by
  cases p with
  | none => exact Triple.pure rfl
  | some address =>
    intro rest requests
    have hmem : address ∈ rest + {address} := by simp
    refine ⟨(), _, if_pos hmem, 0, ?_, rfl⟩
    rw [Multiset.add_comm]
    show (address ::ₘ rest).erase address = rest + 0
    rw [Multiset.erase_cons_head, Multiset.add_zero]

theorem triple_store (refused : Nat → Bool) (contents : β)
    : Triple 0 (store refused contents)
        (fun p blocks => blocks = held p.address
          ∧ ((∃ address, p = some { address, contents }) ∨ p = none ∧ ∃ k, refused k = true)) := by
  apply (triple_malloc refused).bind
  rintro p _ ⟨rfl, hrefused⟩
  apply Triple.pure
  cases p with
  | none => exact ⟨rfl, .inr ⟨rfl, hrefused rfl⟩⟩
  | some address => exact ⟨rfl, .inl ⟨address, rfl⟩⟩

end Ownership
