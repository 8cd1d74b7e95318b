import Idax.Library.OrderedMap
import Idax.Library.Ownership

/-!
Objects that several holders share. An object has a count of its holders and a block that it gives
back when it goes, and it goes with its last holder.
-/

namespace SharedPtr

open Ownership

structure Object where
  useCount : Nat
  owned : Nat
  deriving DecidableEq, Repr

abbrev Objects := OrderedMap Nat Object

section Operations

def make (owned : Nat) (objects : Objects) : Mem (Nat × Objects) := do
  let p ← box
  return (p, objects.insert p { useCount := 1, owned })

def copy (p : Nat) (objects : Objects) : Mem Objects :=
  match objects.find? p with
  | none => fault
  | some object => do
    touch p
    return objects.insert p { object with useCount := object.useCount + 1 }

def release (p : Nat) (objects : Objects) : Mem Objects :=
  match objects.find? p with
  | none => fault
  | some object => do
    touch p
    if object.useCount = 1 then
      free (some object.owned)
      free (some p)
      return objects.erase p
    else
      return objects.insert p { object with useCount := object.useCount - 1 }

def use (p : Nat) (objects : Objects) : Mem Unit :=
  match objects.find? p with
  | none => fault
  | some object => do
    touch p
    touch object.owned

def owned (objects : Objects) (p : Nat) : Option Nat :=
  (objects.find? p).map Object.owned

end Operations

section Counted

def blocks (objects : Objects) : Multiset Nat :=
  (objects.entries.flatMap fun e => [e.1, e.2.owned] : List Nat)

structure Counted (objects : Objects) (holders rest : Multiset Nat) (h : Heap) : Prop where
  count : ∀ p, holders.count p = (objects.find? p).elim 0 Object.useCount
  pos : ∀ p object, objects.find? p = some object → 0 < object.useCount
  live : h.live = blocks objects + rest
  nodup : h.live.Nodup
  fresh : ∀ b ∈ h.live, b < h.requests

variable {objects : Objects} {holders rest : Multiset Nat} {h : Heap} {p raw : Nat}

theorem blocks_of_perm {es : List (Nat × Object)} (hperm : objects.entries.Perm es)
    : blocks objects = (es.flatMap fun e => [e.1, e.2.owned] : List Nat) :=
  Multiset.coe_eq_coe.mpr (hperm.flatMap_right _)

theorem blocks_of_find? {object : Object} (hfind : objects.find? p = some object)
    : blocks objects = p ::ₘ object.owned ::ₘ blocks (objects.erase p) :=
  blocks_of_perm (OrderedMap.perm_cons_erase hfind)

theorem blocks_insert (object : Object)
    : blocks (objects.insert p object) = p ::ₘ object.owned ::ₘ blocks (objects.erase p) :=
  blocks_of_perm (OrderedMap.perm_insert objects p object)

theorem blocks_erase_of_none (hnone : objects.find? p = none) : blocks (objects.erase p) = blocks objects :=
  blocks_of_perm (OrderedMap.perm_erase_of_none hnone)

theorem mem_blocks_iff (b : Nat)
    : b ∈ blocks objects ↔ ∃ p object, objects.find? p = some object ∧ (b = p ∨ b = object.owned) := by
  simp only [blocks, Multiset.mem_coe, List.mem_flatMap, Prod.exists, OrderedMap.mem_entries_iff]
  simp

theorem counted_empty : Counted .empty 0 0 {} := by
  constructor <;> simp [blocks, OrderedMap.empty, OrderedMap.find?]

theorem Counted.box (hcounted : Counted objects holders rest h)
    : box h = some (h.requests, { live := h.requests ::ₘ h.live, requests := h.requests + 1 })
      ∧ Counted objects holders (h.requests ::ₘ rest)
        { live := h.requests ::ₘ h.live, requests := h.requests + 1 } := by
  refine ⟨rfl, hcounted.count, hcounted.pos, ?_, ?_, ?_⟩
  . show h.requests ::ₘ h.live = _
    rw [hcounted.live, Multiset.add_cons]
  . apply Multiset.nodup_cons.mpr
    exact ⟨fun hmem => Nat.lt_irrefl _ (hcounted.fresh _ hmem), hcounted.nodup⟩
  . intro b hb
    rcases Multiset.mem_cons.mp hb with rfl | hold
    . exact Nat.lt_succ_self _
    . exact Nat.lt_succ_of_lt (hcounted.fresh b hold)

theorem Counted.find?_eq_none_of_fresh (hcounted : Counted objects holders rest h) (hp : h.requests ≤ p)
    : objects.find? p = none := by
  cases hfind : objects.find? p with
  | none => rfl
  | some object =>
    have hmem : p ∈ h.live := by
      rw [hcounted.live, Multiset.mem_add, mem_blocks_iff]
      exact .inl ⟨p, object, hfind, .inl rfl⟩
    have := hcounted.fresh p hmem
    omega

theorem Counted.make (hcounted : Counted objects holders (raw ::ₘ rest) h)
    : ∃ objects' h', make raw objects h = some ((h.requests, objects'), h')
      ∧ Counted objects' (h.requests ::ₘ holders) rest h'
      ∧ h.requests ∉ holders
      ∧ ∀ q, owned objects' q = if q = h.requests then some raw else owned objects q := by
  have hnone := hcounted.find?_eq_none_of_fresh (Nat.le_refl h.requests)
  have hcount := hcounted.count h.requests
  rw [hnone] at hcount
  rcases hcounted.box with ⟨_, hboxed⟩
  refine ⟨_, _, rfl, ⟨?_, ?_, ?_, hboxed.nodup, hboxed.fresh⟩, Multiset.count_eq_zero.mp hcount, ?_⟩
  . intro q
    rw [OrderedMap.find?_insert, Multiset.count_cons, hcounted.count]
    split
    . next heq =>
      rw [heq, hnone]
      rfl
    . rfl
  . intro q object
    rw [OrderedMap.find?_insert]
    split
    . rintro ⟨⟩
      exact Nat.zero_lt_one
    . exact hcounted.pos q object
  . rw [hboxed.live, blocks_insert, blocks_erase_of_none hnone]
    simp only [Multiset.add_cons, Multiset.cons_add]
  . intro q
    unfold owned
    rw [OrderedMap.find?_insert]
    split <;> rfl

theorem Counted.object (hcounted : Counted objects holders rest h) (hp : p ∈ holders)
    : ∃ object, objects.find? p = some object ∧ p ∈ h.live ∧ object.owned ∈ h.live := by
  have hcount := hcounted.count p
  have hpos := Multiset.count_pos.mpr hp
  cases hfind : objects.find? p with
  | none =>
    rw [hfind] at hcount
    exact absurd hcount (Nat.ne_of_gt hpos)
  | some object =>
    refine ⟨object, rfl, ?_, ?_⟩
    all_goals
      rw [hcounted.live, Multiset.mem_add, mem_blocks_iff]
    . exact .inl ⟨p, object, hfind, .inl rfl⟩
    . exact .inl ⟨p, object, hfind, .inr rfl⟩

theorem Counted.use (hcounted : Counted objects holders rest h) (hp : p ∈ holders)
    : use p objects h = some ((), h) := by
  rcases hcounted.object hp with ⟨object, hfind, hlive, howned⟩
  simp only [SharedPtr.use, hfind, bind, StateT.bind, touch, if_pos hlive, if_pos howned, Option.bind_some]

theorem Counted.recount (hcounted : Counted objects holders rest h) {object : Object}
    {holders' : Multiset Nat}
    {useCount : Nat} (hfind : objects.find? p = some object) (hpos : 0 < useCount)
    (hcount : ∀ q, holders'.count q = if q = p then useCount else holders.count q)
    : Counted (objects.insert p { object with useCount }) holders' rest h
      ∧ ∀ q, owned (objects.insert p { object with useCount }) q = owned objects q := by
  refine ⟨⟨?_, ?_, ?_, hcounted.nodup, hcounted.fresh⟩, ?_⟩
  . intro q
    rw [hcount, OrderedMap.find?_insert]
    split
    . rfl
    . exact hcounted.count q
  . intro q object'
    rw [OrderedMap.find?_insert]
    split
    . rintro ⟨⟩
      exact hpos
    . exact hcounted.pos q object'
  . rw [hcounted.live, blocks_insert, ← blocks_of_find? hfind]
  . intro q
    unfold owned
    rw [OrderedMap.find?_insert]
    split
    . next heq =>
      rw [heq, hfind]
      rfl
    . rfl

theorem Counted.copy (hcounted : Counted objects holders rest h) (hp : p ∈ holders)
    : ∃ objects', copy p objects h = some (objects', h)
      ∧ Counted objects' (p ::ₘ holders) rest h ∧ ∀ q, owned objects' q = owned objects q := by
  rcases hcounted.object hp with ⟨object, hfind, hlive, _⟩
  have hcount := hcounted.count p
  rw [hfind] at hcount
  refine ⟨_, ?_, hcounted.recount hfind (Nat.succ_pos object.useCount) ?_⟩
  . simp only [SharedPtr.copy, hfind, bind, StateT.bind, touch, if_pos hlive, Option.bind_some]
    rfl
  . intro q
    rw [Multiset.count_cons]
    split
    . next heq =>
      rw [heq, hcount]
      rfl
    . rfl

theorem Counted.release (hcounted : Counted objects (p ::ₘ holders) rest h)
    : ∃ objects' h', release p objects h = some (objects', h')
      ∧ Counted objects' holders rest h'
      ∧ (∀ q ∈ holders, owned objects' q = owned objects q)
      ∧ (p ∉ holders → ∀ b, owned objects p = some b → b ∉ h'.live) := by
  rcases hcounted.object (Multiset.mem_cons_self p holders) with ⟨object, hfind, hlive, howned⟩
  have hcount := hcounted.count p
  rw [hfind, Multiset.count_cons_self] at hcount
  dsimp only [Option.elim_some] at hcount
  by_cases hlast : object.useCount = 1
  . have hnone : holders.count p = 0 := by omega
    have hlive' := hcounted.live
    rw [blocks_of_find? hfind] at hlive'
    have hnodup := hcounted.nodup
    rw [hlive', Multiset.cons_add, Multiset.cons_add, Multiset.nodup_cons, Multiset.nodup_cons] at hnodup
    have hne : p ≠ object.owned := fun heq => hnodup.left (heq ▸ Multiset.mem_cons_self _ _)
    have hleft : (h.live.erase object.owned).erase p = blocks (objects.erase p) + rest := by
      rw [hlive', Multiset.cons_add, Multiset.cons_add, Multiset.erase_cons_tail _ hne,
        Multiset.erase_cons_head, Multiset.erase_cons_head]
    have hpresent : p ∈ h.live.erase object.owned := (Multiset.mem_erase_of_ne hne).mpr hlive
    refine ⟨objects.erase p, { h with live := (h.live.erase object.owned).erase p }, ?_,
      ⟨?_, ?_, hleft, ?_, ?_⟩, ?_, ?_⟩
    . simp only [SharedPtr.release, hfind, bind, StateT.bind, touch, if_pos hlive, Option.bind_some,
        if_pos hlast, free, if_pos howned, if_pos hpresent]
      rfl
    . intro q
      rw [OrderedMap.find?_erase]
      split
      . next heq =>
        rw [heq, hnone]
        rfl
      . next hq =>
        rw [← hcounted.count, Multiset.count_cons_of_ne hq]
    . intro q object'
      rw [OrderedMap.find?_erase]
      split
      . intro hnone
        cases hnone
      . exact hcounted.pos q object'
    . exact (hcounted.nodup.erase _).erase _
    . exact fun b hb => hcounted.fresh b (Multiset.mem_of_mem_erase (Multiset.mem_of_mem_erase hb))
    . intro q hq
      unfold owned
      rw [OrderedMap.find?_erase, if_neg]
      rintro rfl
      exact absurd hnone (Multiset.count_ne_zero.mpr hq)
    . intro _ b hb hmem
      unfold owned at hb
      rw [hfind] at hb
      rw [← Option.some.inj hb] at hmem
      exact hcounted.nodup.notMem_erase (Multiset.mem_of_mem_erase hmem)
  . have hpos : 0 < object.useCount - 1 := by
      have := hcounted.pos p object hfind
      omega
    have hcount' : ∀ q, holders.count q
        = if q = p then object.useCount - 1 else (p ::ₘ holders).count q := by
      intro q
      split
      . next heq =>
        rw [heq]
        omega
      . next hq => rw [Multiset.count_cons_of_ne hq]
    rcases hcounted.recount hfind hpos hcount' with ⟨hcounted', howned'⟩
    refine ⟨_, h, ?_, hcounted', fun q _ => howned' q, ?_⟩
    . simp only [SharedPtr.release, hfind, bind, StateT.bind, touch, if_pos hlive, Option.bind_some,
        if_neg hlast]
      rfl
    . intro hnot
      have := Multiset.count_eq_zero_of_notMem hnot
      omega

end Counted

end SharedPtr
