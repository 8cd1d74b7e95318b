import Mathlib.Data.List.Count
import Mathlib.Data.List.Nodup
import Mathlib.Data.List.Perm.Basic

/-!
Programs over guard objects, each of which owns at most one resource of a system and releases it in
its destructor. A class of guards says by its laws where ownership goes; what a program has acquired
is then at any time either held by exactly one guard or was released, once.
-/

namespace Guards

/--
`release` is what giving a resource back does to the system. An object that is assigned to itself
goes through `selfAssign`, and `close` is there where a guard can be emptied before its end.
-/
structure GuardClass (γ : Type u) (σ : Type v) (ρ : Type w) where
  owns : γ → Option ρ
  release : ρ → σ → σ
  empty : γ
  moveConstruct : γ → γ × γ
  moveAssign : γ → γ → σ → γ × γ × σ
  selfAssign : γ → σ → γ × σ
  close : Option (γ → σ → γ × σ)
  destroy : γ → σ → σ
  owns_empty : owns empty = none
  owns_moveConstruct : ∀ other,
    owns (moveConstruct other).1 = owns other ∧ owns (moveConstruct other).2 = none
  moveAssign_eq : ∀ this other s,
    owns (moveAssign this other s).1 = owns other
      ∧ owns (moveAssign this other s).2.1 = none
      ∧ (moveAssign this other s).2.2 = (owns this).elim s (release · s)
  selfAssign_eq : ∀ this s,
    owns (selfAssign this s).1 = owns this ∧ (selfAssign this s).2 = s
  close_eq : ∀ f, close = some f → ∀ this s,
    owns (f this s).1 = none ∧ (f this s).2 = (owns this).elim s (release · s)
  destroy_eq : ∀ this s, destroy this s = (owns this).elim s (release · s)

structure Program (γ : Type u) (σ : Type v) (ρ : Type w) where
  objects : List (Option γ) := []
  system : σ
  acquired : List ρ := []
  released : List ρ := []

inductive Op where
  | construct
  | moveConstruct (other : Nat)
  | moveAssign (this other : Nat)
  | close (this : Nat)
  | destroy (this : Nat)
  deriving DecidableEq, Repr

variable {γ : Type u} {σ : Type v} {ρ : Type w} (c : GuardClass γ σ ρ)

def Program.object (p : Program γ σ ρ) (i : Nat) : Option γ :=
  p.objects[i]?.join

/--
An object is named by its place in the list. Naming one that is not there is no program, and has no
effect.
-/
def step (p : Program γ σ ρ) : Op → Program γ σ ρ
  | .construct => { p with objects := p.objects ++ [some c.empty] }
  | .moveConstruct i =>
    match p.object i with
    | none => p
    | some other =>
      let (this, other) := c.moveConstruct other
      { p with objects := p.objects.set i (some other) ++ [some this] }
  | .moveAssign i j =>
    match p.object i, p.object j with
    | some this, some other =>
      if i = j then
        let (this, s) := c.selfAssign this p.system
        { p with objects := p.objects.set i (some this), system := s }
      else
        let released := p.released ++ (c.owns this).toList
        let (this, other, s) := c.moveAssign this other p.system
        { p with
          objects := (p.objects.set i (some this)).set j (some other)
          system := s
          released := released
        }
    | _, _ => p
  | .close i =>
    match p.object i, c.close with
    | some this, some close =>
      let released := p.released ++ (c.owns this).toList
      let (this, s) := close this p.system
      { p with objects := p.objects.set i (some this), system := s, released := released }
    | _, _ => p
  | .destroy i =>
    match p.object i with
    | none => p
    | some this => { p with
        objects := p.objects.set i none
        system := c.destroy this p.system
        released := p.released ++ (c.owns this).toList
      }

def releasedBy (p : Program γ σ ρ) : Op → Option ρ
  | .moveAssign i j =>
    if i ≠ j ∧ (p.object j).isSome then (p.object i).bind c.owns else none
  | .close i => if c.close.isSome then (p.object i).bind c.owns else none
  | .destroy i => (p.object i).bind c.owns
  | _ => none

def adopt (guard : γ) (s : σ) (p : Program γ σ ρ) : Program γ σ ρ :=
  { p with
    objects := p.objects ++ [some guard]
    system := s
    acquired := p.acquired ++ (c.owns guard).toList
  }

def owned (object : Option γ) : List ρ :=
  (object.bind c.owns).toList

def held (p : Program γ σ ρ) : List ρ :=
  p.objects.flatMap (owned c)

section Effect

structure Releases (r : Option ρ) (p p' : Program γ σ ρ) : Prop where
  system : p'.system = r.elim p.system (c.release · p.system)
  released : p'.released = p.released ++ r.toList
  acquired : p'.acquired = p.acquired
  held : (r.toList ++ held c p').Perm (held c p)

variable {c}

theorem Releases.refl (p : Program γ σ ρ) : Releases c none p p where
  system := rfl
  released := by simp
  acquired := rfl
  held := by simp

theorem exists_of_object_eq {p : Program γ σ ρ} {i : Nat} {g : γ} (h : p.object i = some g)
    : ∃ hlt : i < p.objects.length, p.objects[i] = some g := by
  apply List.getElem?_eq_some_iff.mp
  apply Option.join_eq_some_iff.mp h

theorem perm_flatMap_set {α : Type u} {β : Type v} (f : α → List β) (l : List α) (i : Nat)
    (hlt : i < l.length) (a : α)
    : (f l[i] ++ (l.set i a).flatMap f).Perm (f a ++ l.flatMap f) := by
  induction l generalizing i with
  | nil => simp at hlt
  | cons b l ih =>
    cases i with
    | zero =>
      simp only [List.getElem_cons_zero, List.set_cons_zero, List.flatMap_cons]
      apply List.perm_append_comm_assoc
    | succ i =>
      simp only [List.length_cons, Nat.add_lt_add_iff_right] at hlt
      simp only [List.getElem_cons_succ, List.set_cons_succ, List.flatMap_cons]
      apply (List.perm_append_comm_assoc _ _ _).trans
      apply ((ih i hlt).append_left (f b)).trans
      apply List.perm_append_comm_assoc

theorem perm_held_set {p : Program γ σ ρ} {i : Nat} {g : γ} (h : p.object i = some g)
    (object : Option γ)
    : ((c.owns g).toList ++ (p.objects.set i object).flatMap (owned c)).Perm
        (owned c object ++ held c p) := by
  rcases exists_of_object_eq h with ⟨hlt, heq⟩
  have hset := perm_flatMap_set (owned c) p.objects i hlt object
  rw [heq] at hset
  apply hset

theorem releases_moveConstruct (p : Program γ σ ρ) (i : Nat)
    : Releases c none p (step c p (.moveConstruct i)) := by
  simp only [step]
  cases hother : p.object i with
  | none => apply Releases.refl
  | some other =>
    rcases c.owns_moveConstruct other with ⟨hthis, hleft⟩
    have hset := perm_held_set (c := c) hother (some (c.moveConstruct other).2)
    refine ⟨rfl, by simp, rfl, ?_⟩
    simp only [owned, Option.bind_some, hleft, Option.toList_none, List.nil_append] at hset
    simp only [held, List.flatMap_append, List.flatMap_cons, List.flatMap_nil, owned,
      Option.bind_some, hthis, Option.toList_none, List.nil_append, List.append_nil]
    apply List.perm_append_comm.trans hset

theorem releases_moveAssign (p : Program γ σ ρ) (i j : Nat)
    : Releases c (releasedBy c p (.moveAssign i j)) p (step c p (.moveAssign i j)) := by
  simp only [step, releasedBy]
  cases hthis : p.object i with
  | none =>
    simp only [Option.bind_none, ite_self]
    apply Releases.refl
  | some this =>
    cases hother : p.object j with
    | none =>
      simp only [Option.isSome_none, Bool.false_eq_true, and_false, if_false]
      apply Releases.refl
    | some other =>
      by_cases hij : i = j
      . rcases c.selfAssign_eq this p.system with ⟨howns, hsystem⟩
        have hset := perm_held_set (c := c) hthis (some (c.selfAssign this p.system).1)
        simp only [owned, Option.bind_some, howns] at hset
        simp only [hij, ne_eq, not_true_eq_false, false_and, if_false, if_true, hsystem]
        refine ⟨rfl, by simp, rfl, ?_⟩
        rw [← hij]
        apply (List.perm_append_left_iff _).mp hset
      . rcases c.moveAssign_eq this other p.system with ⟨hnew, hleft, hsystem⟩
        simp only [hij, ne_eq, not_false_eq_true, Option.isSome_some, and_self, if_true, if_false]
        refine ⟨hsystem, rfl, rfl, ?_⟩
        -- First the assigned object takes what the other one owns, then the other one lets go.
        let assigned := p.objects.set i (some (c.moveAssign this other p.system).1)
        have hfirst := perm_held_set (c := c) hthis (some (c.moveAssign this other p.system).1)
        have hstill : Program.object { p with objects := assigned } j = some other := by
          simp only [Program.object, assigned, List.getElem?_set_ne hij]
          apply hother
        have hsecond := perm_held_set (c := c) hstill
          (some (c.moveAssign this other p.system).2.1)
        simp only [owned, Option.bind_some, hnew, hleft, Option.toList_none, List.nil_append]
          at hfirst hsecond
        apply (List.perm_append_left_iff (c.owns other).toList).mp
        apply (List.perm_append_comm_assoc _ _ _).trans
        apply (hsecond.append_left (c.owns this).toList).trans hfirst

theorem releases_close (p : Program γ σ ρ) (i : Nat)
    : Releases c (releasedBy c p (.close i)) p (step c p (.close i)) := by
  simp only [step, releasedBy]
  cases hthis : p.object i with
  | none =>
    simp only [Option.bind_none, ite_self]
    apply Releases.refl
  | some this =>
    cases hclose : c.close with
    | none =>
      simp only [Option.isSome_none, Bool.false_eq_true, if_false]
      apply Releases.refl
    | some close =>
      rcases c.close_eq close hclose this p.system with ⟨hempty, hsystem⟩
      have hset := perm_held_set (c := c) hthis (some (close this p.system).1)
      simp only [owned, Option.bind_some, hempty, Option.toList_none, List.nil_append] at hset
      exact ⟨hsystem, rfl, rfl, hset⟩

theorem releases_destroy (p : Program γ σ ρ) (i : Nat)
    : Releases c (releasedBy c p (.destroy i)) p (step c p (.destroy i)) := by
  simp only [step, releasedBy]
  cases hthis : p.object i with
  | none => apply Releases.refl
  | some this =>
    have hset := perm_held_set (c := c) hthis none
    simp only [owned, Option.bind_none, Option.toList_none, List.nil_append] at hset
    exact ⟨c.destroy_eq this p.system, rfl, rfl, hset⟩

theorem releases_step (p : Program γ σ ρ) (op : Op)
    : Releases c (releasedBy c p op) p (step c p op) := by
  cases op with
  | construct =>
    refine ⟨rfl, by simp [step, releasedBy], rfl, ?_⟩
    simp [step, releasedBy, held, owned, c.owns_empty]
  | moveConstruct i => apply releases_moveConstruct
  | moveAssign i j => apply releases_moveAssign
  | close i => apply releases_close
  | destroy i => apply releases_destroy

end Effect

section Balance

def Balanced (p : Program γ σ ρ) : Prop :=
  (held c p ++ p.released).Perm p.acquired

variable {c}

theorem balanced_step {p : Program γ σ ρ} (hbalanced : Balanced c p) (op : Op)
    : Balanced c (step c p op) := by
  have hreleases := releases_step (c := c) p op
  unfold Balanced
  rw [hreleases.released, hreleases.acquired]
  apply List.Perm.trans _ hbalanced
  apply List.Perm.trans _ (hreleases.held.append_right p.released)
  rw [List.append_assoc]
  apply (List.perm_append_comm.append_left _).trans
  apply List.perm_append_comm_assoc

theorem held_adopt (guard : γ) (s : σ) (p : Program γ σ ρ)
    : held c (adopt c guard s p) = held c p ++ (c.owns guard).toList := by
  simp [held, adopt, owned]

theorem balanced_adopt {p : Program γ σ ρ} (hbalanced : Balanced c p) (guard : γ) (s : σ)
    : Balanced c (adopt c guard s p) := by
  unfold Balanced
  rw [held_adopt]
  simp only [adopt]
  apply List.Perm.trans _ (hbalanced.append_right (c.owns guard).toList)
  rw [List.append_assoc, List.append_assoc]
  apply List.Perm.append_left
  apply List.perm_append_comm

theorem Balanced.nodup {p : Program γ σ ρ} (hbalanced : Balanced c p) (hnodup : p.acquired.Nodup)
    : (held c p).Nodup ∧ p.released.Nodup ∧ ∀ r ∈ held c p, r ∉ p.released := by
  have happend : (held c p ++ p.released).Nodup := hbalanced.nodup_iff.mpr hnodup
  rw [List.nodup_append] at happend
  refine ⟨happend.left, happend.right.left, ?_⟩
  intro r hheld hreleased
  apply happend.right.right r hheld r hreleased rfl

variable (c) in
structure ReleasedOnce (p : Program γ σ ρ) : Prop where
  owner_unique : ∀ i j g g' r, p.object i = some g → p.object j = some g' →
    c.owns g = some r → c.owns g' = some r → i = j
  released_nodup : p.released.Nodup
  held_not_released : ∀ r ∈ held c p, r ∉ p.released
  destroyed : (∀ object ∈ p.objects, object = none) → p.released.Perm p.acquired

theorem owner_unique_of_nodup {p : Program γ σ ρ} (hnodup : (held c p).Nodup) {i j : Nat}
    {g g' : γ} {r : ρ} (hi : p.object i = some g) (hj : p.object j = some g')
    (hg : c.owns g = some r) (hg' : c.owns g' = some r) : i = j := by
  rcases exists_of_object_eq hi with ⟨hlti, hgeti⟩
  rcases exists_of_object_eq hj with ⟨hltj, hgetj⟩
  have hdisjoint := List.pairwise_iff_getElem.mp (List.nodup_flatMap.mp hnodup).right
  have hmemi : r ∈ owned c p.objects[i] := by simp [hgeti, owned, hg]
  have hmemj : r ∈ owned c p.objects[j] := by simp [hgetj, owned, hg']
  rcases Nat.lt_trichotomy i j with hlt | heq | hlt
  . exact absurd hmemj (hdisjoint i j hlti hltj hlt hmemi)
  . apply heq
  . exact absurd hmemi (hdisjoint j i hltj hlti hlt hmemj)

theorem Balanced.releasedOnce {p : Program γ σ ρ} (hbalanced : Balanced c p)
    (hnodup : p.acquired.Nodup) : ReleasedOnce c p := by
  rcases hbalanced.nodup hnodup with ⟨hheld, hreleased, hdisjoint⟩
  constructor
  case owner_unique =>
    intro i j g g' r hi hj hg hg'
    apply owner_unique_of_nodup hheld hi hj hg hg'
  case released_nodup => apply hreleased
  case held_not_released => apply hdisjoint
  case destroyed =>
    intro hdestroyed
    have hnone : held c p = [] := by
      apply List.flatMap_eq_nil_iff.mpr
      intro object hobject
      simp [hdestroyed object hobject, owned]
    unfold Balanced at hbalanced
    rw [hnone] at hbalanced
    apply hbalanced

end Balance

section Live

structure Owned (valid : σ → Prop) (live : σ → ρ → Prop) (p : Program γ σ ρ) : Prop where
  balanced : Balanced c p
  nodup : p.acquired.Nodup
  valid : valid p.system
  held : ∀ r ∈ held c p, live p.system r
  released : ∀ r ∈ p.released, ¬ live p.system r

variable {c} {valid : σ → Prop} {live : σ → ρ → Prop}

theorem Owned.live_iff_held {p : Program γ σ ρ} (howned : Owned c valid live p) (r : ρ)
    (hacquired : r ∈ p.acquired) : live p.system r ↔ r ∈ Guards.held c p := by
  constructor
  . intro hlive
    have hmem := howned.balanced.symm.subset hacquired
    apply (List.mem_append.mp hmem).resolve_right
    intro hreleased
    apply howned.released r hreleased hlive
  . apply howned.held r

theorem owned_step
    (hvalid : ∀ r s, valid s → valid (c.release r s))
    (hlive : ∀ r s, valid s → live s r → ∀ r', live (c.release r s) r' ↔ live s r' ∧ r' ≠ r)
    {p : Program γ σ ρ} (howned : Owned c valid live p) (op : Op)
    : Owned c valid live (step c p op) := by
  have hreleases := releases_step (c := c) p op
  have hbalanced := balanced_step howned.balanced op
  have hsystem := hreleases.system
  cases hr : releasedBy c p op with
  | none =>
    rw [hr] at hreleases hsystem
    simp only [Option.elim_none] at hsystem
    refine ⟨hbalanced, ?_, ?_, ?_, ?_⟩
    . rw [hreleases.acquired]
      apply howned.nodup
    . rw [hsystem]
      apply howned.valid
    . intro r hmem
      rw [hsystem]
      apply howned.held r
      apply hreleases.held.subset hmem
    . intro r hmem
      rw [hreleases.released] at hmem
      rw [hsystem]
      apply howned.released r
      simpa using hmem
  | some r =>
    rw [hr] at hreleases hsystem
    simp only [Option.elim_some] at hsystem
    have hheld : r ∈ Guards.held c p := hreleases.held.subset (by simp)
    have hafter := hlive r p.system howned.valid (howned.held r hheld)
    have hnodup : (step c p op).acquired.Nodup := by
      rw [hreleases.acquired]
      apply howned.nodup
    refine ⟨hbalanced, hnodup, ?_, ?_, ?_⟩
    . rw [hsystem]
      apply hvalid r p.system howned.valid
    . intro r' hmem
      rw [hsystem, hafter]
      refine ⟨howned.held r' (hreleases.held.subset (by simp [hmem])), ?_⟩
      -- The one that was released is not held any more.
      rintro rfl
      apply (hbalanced.nodup hnodup).right.right r' hmem
      rw [hreleases.released]
      simp
    . intro r' hmem
      rw [hreleases.released] at hmem
      rw [hsystem, hafter]
      rcases List.mem_append.mp hmem with hold | hnew
      . intro hnot
        apply howned.released r' hold hnot.left
      . simp only [Option.toList_some, List.mem_singleton] at hnew
        simp [hnew]

theorem owned_adopt {p : Program γ σ ρ} (howned : Owned c valid live p) (guard : γ)
    (hguard : ∀ r, c.owns guard = some r → live p.system r ∧ r ∉ p.acquired)
    : Owned c valid live (adopt c guard p.system p) := by
  refine ⟨balanced_adopt howned.balanced guard p.system, ?_, howned.valid, ?_, howned.released⟩
  . cases howns : c.owns guard with
    | none => simpa [adopt, howns] using howned.nodup
    | some r =>
      simp only [adopt, howns, Option.toList_some]
      apply List.nodup_append.mpr
      refine ⟨howned.nodup, List.nodup_singleton r, ?_⟩
      intro r' hr' r'' hr''
      rw [List.mem_singleton.mp hr'']
      intro heq
      apply (hguard r howns).right
      rw [← heq]
      apply hr'
  . intro r hmem
    rw [held_adopt] at hmem
    rcases List.mem_append.mp hmem with hold | hnew
    . apply howned.held r hold
    . apply (hguard r (Option.mem_toList.mp hnew)).left

theorem Owned.of_system {p : Program γ σ ρ} (howned : Owned c valid live p) {s : σ}
    (hvalid : valid s) (hlive : ∀ r ∈ p.acquired, live s r ↔ live p.system r)
    : Owned c valid live { p with system := s } := by
  have hacquired : ∀ r, r ∈ Guards.held c p ++ p.released → r ∈ p.acquired :=
    fun r hmem => howned.balanced.subset hmem
  refine ⟨howned.balanced, howned.nodup, hvalid, ?_, ?_⟩
  . intro r hmem
    rw [hlive r (hacquired r (List.mem_append_left _ hmem))]
    apply howned.held r hmem
  . intro r hmem
    rw [hlive r (hacquired r (List.mem_append_right _ hmem))]
    apply howned.released r hmem

end Live

end Guards
