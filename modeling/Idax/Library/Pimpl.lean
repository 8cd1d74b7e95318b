import Mathlib.Data.List.Basic

/-!
Objects that own their implementation through a pointer. A program allocates and frees implementations and
lets the pointers of objects refer to them; what reads through a pointer that refers to nothing has no
defined behaviour. The invariant is that each implementation is owned by exactly one object.
-/

namespace Pimpl

section Slots

def slot? (l : List (Option β)) (i : Nat) : Option β :=
  l[i]?.join

theorem slot?_append (l : List (Option β)) (b : Option β) (i : Nat)
    : slot? (l ++ [b]) i = if i = l.length then b else slot? l i := by
  unfold slot?
  rcases Nat.lt_trichotomy i l.length with hlt | heq | hgt
  . rw [List.getElem?_append_left hlt, if_neg (Nat.ne_of_lt hlt)]
  . rw [heq, List.getElem?_append_right (Nat.le_refl _), if_pos rfl, Nat.sub_self]
    rfl
  . rw [if_neg (Nat.ne_of_gt hgt), List.getElem?_eq_none (Nat.le_of_lt hgt)]
    rw [List.getElem?_eq_none]
    rw [List.length_append, List.length_singleton]
    omega

theorem slot?_length (l : List (Option β)) : slot? l l.length = none := by
  rw [slot?, List.getElem?_eq_none (Nat.le_refl _), Option.join_none]

theorem slot?_set {l : List (Option β)} {j : Nat} (h : slot? l j ≠ none) (b : Option β) (i : Nat)
    : slot? (l.set j b) i = if i = j then b else slot? l i := by
  have hlt : j < l.length := by
    by_contra hle
    apply h
    rw [slot?, List.getElem?_eq_none (Nat.le_of_not_lt hle), Option.join_none]
  unfold slot?
  rw [List.getElem?_set]
  by_cases heq : j = i
  . rw [if_pos heq, if_pos hlt, if_pos heq.symm, Option.join_some]
  . rw [if_neg heq, if_neg (Ne.symm heq)]

end Slots

/--
The implementations by their address, and the pointers of the objects. A slot is `none` where an
implementation was freed or the lifetime of an object has ended.
-/
structure Heap (ι : Type) where
  cells : List (Option ι) := []
  objects : List (Option (Option Nat)) := []

namespace Heap

variable {ι : Type} (h : Heap ι)

def cell? (p : Nat) : Option ι :=
  slot? h.cells p

def pointer? (o : Nat) : Option (Option Nat) :=
  slot? h.objects o

def alloc (i : ι) : Heap ι :=
  { h with cells := h.cells ++ [some i] }

def store (p : Nat) (i : ι) : Heap ι :=
  { h with cells := h.cells.set p (some i) }

def free (p : Nat) : Heap ι :=
  { h with cells := h.cells.set p none }

def declare (ptr : Option Nat) : Heap ι :=
  { h with objects := h.objects ++ [some ptr] }

def setPointer (o : Nat) (ptr : Option Nat) : Heap ι :=
  { h with objects := h.objects.set o (some ptr) }

def endLife (o : Nat) : Heap ι :=
  { h with objects := h.objects.set o none }

def delete (ptr : Option Nat) : Heap ι :=
  match ptr with
  | none => h
  | some p => h.free p

def Absent (o : Nat) : Prop :=
  h.pointer? o = some none

def Present (o : Nat) : Prop :=
  ∃ p, h.pointer? o = some (some p)

structure Owned : Prop where
  valid : ∀ o p, h.pointer? o = some (some p) → h.cell? p ≠ none
  unique : ∀ o o' p, h.pointer? o = some (some p) → h.pointer? o' = some (some p) → o = o'
  covered : ∀ p, h.cell? p ≠ none → ∃ o, h.pointer? o = some (some p)

section Reads

variable {h}

theorem cell?_alloc (i : ι) (p : Nat)
    : (h.alloc i).cell? p = if p = h.cells.length then some i else h.cell? p :=
  slot?_append h.cells (some i) p

theorem cell?_store {p : Nat} (hp : h.cell? p ≠ none) (i : ι) (q : Nat)
    : (h.store p i).cell? q = if q = p then some i else h.cell? q :=
  slot?_set hp (some i) q

theorem cell?_free {p : Nat} (hp : h.cell? p ≠ none) (q : Nat)
    : (h.free p).cell? q = if q = p then none else h.cell? q :=
  slot?_set hp none q

theorem pointer?_declare (ptr : Option Nat) (o : Nat)
    : (h.declare ptr).pointer? o = if o = h.objects.length then some ptr else h.pointer? o :=
  slot?_append h.objects (some ptr) o

theorem pointer?_setPointer {o : Nat} (ho : h.pointer? o ≠ none) (ptr : Option Nat) (o' : Nat)
    : (h.setPointer o ptr).pointer? o' = if o' = o then some ptr else h.pointer? o' :=
  slot?_set ho (some ptr) o'

theorem pointer?_endLife {o : Nat} (ho : h.pointer? o ≠ none) (o' : Nat)
    : (h.endLife o).pointer? o' = if o' = o then none else h.pointer? o' :=
  slot?_set ho none o'

@[simp]
theorem pointer?_delete (ptr : Option Nat) (o : Nat) : (h.delete ptr).pointer? o = h.pointer? o := by
  cases ptr <;> rfl

theorem pointer?_length : h.pointer? h.objects.length = none :=
  slot?_length h.objects

theorem cell?_length : h.cell? h.cells.length = none :=
  slot?_length h.cells

theorem Absent.ne_none {o : Nat} (ho : h.Absent o) : h.pointer? o ≠ none := by
  intro hnone
  cases ho.symm.trans hnone

theorem Absent.ne_some {o p : Nat} (ho : h.Absent o) : h.pointer? o ≠ some (some p) := by
  intro hsome
  cases ho.symm.trans hsome

theorem setPointer_setPointer (o : Nat) (ptr ptr' : Option Nat)
    : (h.setPointer o ptr).setPointer o ptr' = h.setPointer o ptr' := by
  rw [setPointer, setPointer, setPointer, List.set_set]

theorem endLife_setPointer (o : Nat) (ptr : Option Nat) : (h.setPointer o ptr).endLife o = h.endLife o := by
  rw [endLife, setPointer, endLife, List.set_set]

theorem declare_eq (ptr : Option Nat)
    : h.declare ptr = (h.declare none).setPointer h.objects.length ptr := by
  rw [declare, setPointer, declare, List.set_append_right _ _ (Nat.le_refl _), Nat.sub_self]
  rfl

end Reads

section Ownership

variable {h}

theorem owned_declare (howned : h.Owned) : (h.declare none).Owned where
  valid := by
    intro o p ho
    rw [pointer?_declare] at ho
    split at ho
    . cases ho
    . exact howned.valid o p ho
  unique := by
    intro o o' p ho ho'
    rw [pointer?_declare] at ho ho'
    split at ho <;> split at ho'
    . cases ho
    . cases ho
    . cases ho'
    . exact howned.unique o o' p ho ho'
  covered := by
    intro p hp
    rcases howned.covered p hp with ⟨o, ho⟩
    refine ⟨o, ?_⟩
    rw [pointer?_declare, if_neg]
    . exact ho
    . rintro rfl
      rw [pointer?_length] at ho
      cases ho

theorem owned_give (howned : h.Owned) {o : Nat} (ho : h.Absent o) (i : ι)
    : ((h.alloc i).setPointer o (some h.cells.length)).Owned := by
  have halive : (h.alloc i).pointer? o ≠ none := ho.ne_none
  have hnew := h.cell?_length
  have hpointer (o' : Nat) : ((h.alloc i).setPointer o (some h.cells.length)).pointer? o'
      = if o' = o then some (some h.cells.length) else h.pointer? o' :=
    pointer?_setPointer halive _ o'
  have hcell (p : Nat) : ((h.alloc i).setPointer o (some h.cells.length)).cell? p
      = if p = h.cells.length then some i else h.cell? p :=
    cell?_alloc i p
  constructor
  . intro o' p ho'
    rw [hpointer] at ho'
    rw [hcell]
    split
    . simp
    . next hp =>
      split at ho'
      . cases ho'
        exact absurd rfl hp
      . exact howned.valid o' p ho'
  . intro o' o'' p ho' ho''
    rw [hpointer] at ho' ho''
    split at ho' <;> split at ho''
    . next h' h'' => rw [h', h'']
    . cases ho'
      exact absurd hnew (howned.valid o'' _ ho'')
    . cases ho''
      exact absurd hnew (howned.valid o' _ ho')
    . exact howned.unique o' o'' p ho' ho''
  . intro p hp
    rw [hcell] at hp
    split at hp
    . next heq =>
      refine ⟨o, ?_⟩
      rw [hpointer, if_pos rfl, heq]
    . rcases howned.covered p hp with ⟨o', ho'⟩
      refine ⟨o', ?_⟩
      rw [hpointer, if_neg]
      . exact ho'
      . rintro rfl
        exact ho.ne_some ho'

theorem owned_transfer (howned : h.Owned) {o o' : Nat} {ptr : Option Nat} (hne : o ≠ o')
    (ho : h.Absent o) (ho' : h.pointer? o' = some ptr)
    : ((h.setPointer o ptr).setPointer o' none).Owned := by
  have halive := ho.ne_none
  have halive' : (h.setPointer o ptr).pointer? o' ≠ none := by
    rw [pointer?_setPointer halive, if_neg (Ne.symm hne), ho']
    simp
  have hpointer (q : Nat) : ((h.setPointer o ptr).setPointer o' none).pointer? q
      = if q = o' then some none else if q = o then some ptr else h.pointer? q := by
    rw [pointer?_setPointer halive', pointer?_setPointer halive]
  constructor
  . intro q p hq
    rw [hpointer] at hq
    split at hq
    . cases hq
    . split at hq
      . cases hq
        exact howned.valid o' p ho'
      . exact howned.valid q p hq
  . intro q q' p hq hq'
    rw [hpointer] at hq hq'
    split at hq
    . cases hq
    . split at hq'
      . cases hq'
      . next hqo hqo' =>
        split at hq <;> split at hq'
        . next h1 h2 => rw [h1, h2]
        . cases hq
          exact absurd (howned.unique q' o' p hq' ho') hqo'
        . cases hq'
          exact absurd (howned.unique q o' p hq ho') hqo
        . exact howned.unique q q' p hq hq'
  . intro p hp
    rcases howned.covered p hp with ⟨q, hq⟩
    by_cases hqo : q = o'
    . refine ⟨o, ?_⟩
      rw [hpointer, if_neg hne, if_pos rfl, ← ho', ← hqo, hq]
    . refine ⟨q, ?_⟩
      rw [hpointer, if_neg hqo, if_neg]
      . exact hq
      . rintro rfl
        exact ho.ne_some hq

theorem owned_release (howned : h.Owned) {o : Nat} {ptr : Option Nat} (ho : h.pointer? o = some ptr)
    : ((h.delete ptr).setPointer o none).Owned := by
  have halive : (h.delete ptr).pointer? o ≠ none := by
    rw [pointer?_delete, ho]
    simp
  have hpointer (q : Nat) : ((h.delete ptr).setPointer o none).pointer? q
      = if q = o then some none else h.pointer? q := by
    rw [pointer?_setPointer halive, pointer?_delete]
  have hcell (p : Nat) : ((h.delete ptr).setPointer o none).cell? p
      = if some p = ptr then none else h.cell? p := by
    cases ptr with
    | none => rfl
    | some p' =>
      simp only [Option.some.injEq]
      exact cell?_free (howned.valid o p' ho) p
  constructor
  . intro q p hq
    rw [hpointer] at hq
    rw [hcell]
    split at hq
    . cases hq
    . next hqo =>
      rw [if_neg]
      . exact howned.valid q p hq
      . rintro rfl
        exact hqo (howned.unique q o p hq ho)
  . intro q q' p hq hq'
    rw [hpointer] at hq hq'
    split at hq
    . cases hq
    . split at hq'
      . cases hq'
      . exact howned.unique q q' p hq hq'
  . intro p hp
    rw [hcell] at hp
    split at hp
    . exact absurd rfl hp
    . next hne =>
      rcases howned.covered p hp with ⟨q, hq⟩
      refine ⟨q, ?_⟩
      rw [hpointer, if_neg]
      . exact hq
      . rintro rfl
        rw [ho] at hq
        injection hq with hq
        exact hne hq.symm

theorem owned_endLife (howned : h.Owned) {o : Nat} (ho : h.Absent o) : (h.endLife o).Owned := by
  have halive := ho.ne_none
  constructor
  . intro q p hq
    rw [pointer?_endLife halive] at hq
    split at hq
    . cases hq
    . exact howned.valid q p hq
  . intro q q' p hq hq'
    rw [pointer?_endLife halive] at hq hq'
    split at hq
    . cases hq
    . split at hq'
      . cases hq'
      . exact howned.unique q q' p hq hq'
  . intro p hp
    rcases howned.covered p hp with ⟨q, hq⟩
    refine ⟨q, ?_⟩
    rw [pointer?_endLife halive, if_neg]
    . exact hq
    . rintro rfl
      exact ho.ne_some hq

theorem owned_store (howned : h.Owned) {p : Nat} (hp : h.cell? p ≠ none) (i : ι)
    : (h.store p i).Owned := by
  have hcell (q : Nat) : (h.store p i).cell? q ≠ none ↔ h.cell? q ≠ none := by
    rw [cell?_store hp]
    split
    . next heq => simp [heq, hp]
    . rfl
  constructor
  . intro o q ho
    rw [hcell]
    exact howned.valid o q ho
  . exact howned.unique
  . intro q hq
    rw [hcell] at hq
    exact howned.covered q hq

end Ownership

def Keeps (h h' : Heap ι) : Prop :=
  ∀ o ptr, h.pointer? o = some ptr → h'.pointer? o = some ptr

theorem Keeps.refl (h : Heap ι) : h.Keeps h :=
  fun _ _ ho => ho

theorem Keeps.trans {h h' h'' : Heap ι} (hk : h.Keeps h') (hk' : h'.Keeps h'') : h.Keeps h'' :=
  fun o ptr ho => hk' o ptr (hk o ptr ho)

def construct (i : ι) : Heap ι :=
  (h.alloc i).declare (some h.cells.length)

variable {h}

theorem owned_construct (howned : h.Owned) (i : ι) : (h.construct i).Owned := by
  have habsent : (h.declare none).Absent h.objects.length := by
    rw [Absent, pointer?_declare, if_pos rfl]
  have hgive := owned_give (owned_declare howned) habsent i
  rw [construct, declare_eq]
  exact hgive

theorem pointer?_construct (i : ι) (o : Nat)
    : (h.construct i).pointer? o
        = if o = h.objects.length then some (some h.cells.length) else h.pointer? o :=
  pointer?_declare _ o

theorem keeps_construct (i : ι) : h.Keeps (h.construct i) := by
  intro o ptr ho
  rw [pointer?_construct, if_neg]
  . exact ho
  . rintro rfl
    cases pointer?_length.symm.trans ho

end Heap

def Prog (ι : Type) (α : Type) : Type :=
  Heap ι → Option (α × Heap ι)

namespace Prog

variable {ι : Type}

instance instMonad : Monad (Prog ι) where
  pure a := fun h => some (a, h)
  bind m f := fun h => (m h).bind fun r => f r.1 r.2

theorem bind_apply (m : Prog ι α) (f : α → Prog ι β) (h : Heap ι)
    : (m >>= f) h = (m h).bind fun r => f r.1 r.2 :=
  rfl

def impl (o : Nat) : Prog ι (Option Nat) :=
  fun h => (h.pointer? o).map fun ptr => (ptr, h)

def deref (ptr : Option Nat) : Prog ι ι :=
  fun h => (ptr.bind h.cell?).map fun i => (i, h)

def store (ptr : Option Nat) (i : ι) : Prog ι Unit :=
  fun h => (ptr.filter fun p => (h.cell? p).isSome).map fun p => ((), h.store p i)

def new (i : ι) : Prog ι (Option Nat) :=
  fun h => some (some h.cells.length, h.alloc i)

def delete (ptr : Option Nat) : Prog ι Unit :=
  fun h => if ptr.all fun p => (h.cell? p).isSome then some ((), h.delete ptr) else none

def object (ptr : Option Nat) : Prog ι Nat :=
  fun h => some (h.objects.length, h.declare ptr)

def setImpl (o : Nat) (ptr : Option Nat) : Prog ι Unit :=
  fun h => (h.pointer? o).map fun _ => ((), h.setPointer o ptr)

def endLife (o : Nat) : Prog ι Unit :=
  fun h => (h.pointer? o).map fun _ => ((), h.endLife o)

def Safe (pre : Heap ι → Prop) (m : Prog ι α) : Prop :=
  ∀ h : Heap ι, h.Owned → pre h → ∃ a h', m h = some (a, h') ∧ h'.Owned ∧ h.Keeps h'

def Stable (pre : Heap ι → Prop) : Prop :=
  ∀ h h' : Heap ι, h.Keeps h' → pre h → pre h'

section Rules

variable {pre : Heap ι → Prop}

theorem safe_pure (a : α) : Safe pre (pure a : Prog ι α) :=
  fun h howned _ => ⟨a, h, rfl, howned, .refl h⟩

theorem safe_bind {m : Prog ι α} {f : α → Prog ι β} (hstable : Stable pre) (hm : Safe pre m)
    (hf : ∀ a, Safe pre (f a))
    : Safe pre (m >>= f) := by
  intro h howned hpre
  rcases hm h howned hpre with ⟨a, h', hrun, howned', hkeeps⟩
  rcases hf a h' howned' (hstable h h' hkeeps hpre) with ⟨b, h'', hrun', howned'', hkeeps'⟩
  refine ⟨b, h'', ?_, howned'', hkeeps.trans hkeeps'⟩
  rw [bind_apply, hrun, Option.bind_some, hrun']

theorem impl_apply {h : Heap ι} {o : Nat} {ptr : Option Nat} (ho : h.pointer? o = some ptr)
    : impl o h = some (ptr, h) := by
  rw [impl, ho, Option.map_some]

theorem deref_apply {h : Heap ι} {p : Nat} {i : ι} (hp : h.cell? p = some i)
    : deref (some p) h = some (i, h) := by
  rw [deref, Option.bind_some, hp, Option.map_some]

theorem deref_impl_present {h : Heap ι} (howned : h.Owned) {o : Nat} (ho : h.Present o)
    : ∃ p i, h.pointer? o = some (some p) ∧ h.cell? p = some i
      ∧ (impl o >>= deref) h = some (i, h) := by
  rcases ho with ⟨p, hp⟩
  rcases Option.ne_none_iff_exists'.mp (howned.valid o p hp) with ⟨i, hi⟩
  refine ⟨p, i, hp, hi, ?_⟩
  rw [bind_apply, impl_apply hp, Option.bind_some, deref_apply hi]

end Rules

end Prog

end Pimpl
