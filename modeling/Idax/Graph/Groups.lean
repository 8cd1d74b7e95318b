import Idax.Library.Machine
import Idax.Graph.Lemmas.Groups

/-!
Which runs of graph operations keep the two records of group membership, `children` on the group and
`parentGroup` on the member, in step. `createGroup` leaves the lists of the groups its members come
from alone and takes a member listed twice twice, `removeNode` looks at neither record, and
`deleteGroup` resets the members of the group but not the list of the group around it.
-/

namespace Idax
namespace Graph

namespace Impl

structure GroupsValid (impl : Impl) : Prop where
  members_valid : ∀ p, impl.groupAt p = true → ∀ m ∈ impl.childrenOf p, impl.valid m = true
  members_nodup : ∀ p, impl.groupAt p = true → (impl.childrenOf p).Nodup
  mem_iff : ∀ p m, impl.groupAt p = true → impl.valid m = true
    → (m ∈ impl.childrenOf p ↔ impl.parentOf m = p)
  parent_live : ∀ m, impl.valid m = true
    → impl.parentOf m = -1 ∨ impl.groupAt (impl.parentOf m) = true

theorem groupsValid_of_eq (impl impl' : Impl) (h : impl.GroupsValid)
    (hvalid : ∀ (n : Int), impl'.valid n = impl.valid n)
    (hgroup : ∀ (n : Int), impl'.groupAt n = impl.groupAt n)
    (hchildren : ∀ (n : Int), impl'.childrenOf n = impl.childrenOf n)
    (hparent : ∀ (n : Int), impl'.parentOf n = impl.parentOf n)
    : impl'.GroupsValid := by
  constructor
  case members_valid => simpa only [hvalid, hgroup, hchildren] using h.members_valid
  case members_nodup => simpa only [hgroup, hchildren] using h.members_nodup
  case mem_iff => simpa only [hvalid, hgroup, hchildren, hparent] using h.mem_iff
  case parent_live => simpa only [hvalid, hgroup, hparent] using h.parent_live

theorem parentOf_length (impl : Impl) : impl.parentOf impl.nodes.length = -1 := by
  simp [parentOf, node?_length]

theorem groupAt_ne_length (impl : Impl) (p : Int) (h : impl.groupAt p = true)
    : p ≠ impl.nodes.length :=
  ne_length_of_valid impl p (valid_of_groupAt impl p h)

theorem groupsValid_addNode (impl : Impl) (h : impl.GroupsValid) : impl.addNode.2.GroupsValid := by
  constructor
  case members_valid =>
    intro p hp m hm
    rw [groupAt_addNode] at hp
    rw [childrenOf_addNode] at hm
    rw [valid_addNode]
    simp [h.members_valid p hp m hm]
  case members_nodup =>
    intro p hp
    rw [groupAt_addNode] at hp
    rw [childrenOf_addNode]
    apply h.members_nodup p hp
  case mem_iff =>
    intro p m hp hm
    rw [groupAt_addNode] at hp
    rw [valid_addNode] at hm
    rw [childrenOf_addNode, parentOf_addNode]
    simp only [Bool.or_eq_true, beq_iff_eq] at hm
    cases hm with
    | inl hnew =>
      -- the new node is in no list yet, and its parent is the default
      have hnot : m ∉ impl.childrenOf p := by
        intro hmem
        apply ne_length_of_valid impl m (h.members_valid p hp m hmem) hnew
      have := valid_lt_length impl p (valid_of_groupAt impl p hp)
      rw [hnew] at hnot ⊢
      rw [parentOf_length]
      simp only [hnot, false_iff]
      omega
    | inr hold => exact h.mem_iff p m hp hold
  case parent_live =>
    intro m hm
    rw [valid_addNode] at hm
    rw [parentOf_addNode, groupAt_addNode]
    simp only [Bool.or_eq_true, beq_iff_eq] at hm
    cases hm with
    | inl hnew =>
      rw [hnew]
      exact .inl (parentOf_length impl)
    | inr hold => exact h.parent_live m hold

section Without

variable {impl impl' : Impl} {n : Int} (h : impl.GroupsValid)
  (hvalid : ∀ k, impl'.valid k = (k != n && impl.valid k))
  (hgroup : ∀ k, impl'.groupAt k = (k != n && impl.groupAt k))
  (hchildren : ∀ k, impl'.childrenOf k = impl.childrenOf k)

include h hgroup hchildren

theorem members_nodup_without
    : ∀ p, impl'.groupAt p = true → (impl'.childrenOf p).Nodup := by
  intro p hp
  rw [hgroup] at hp
  rw [hchildren]
  simp only [Bool.and_eq_true] at hp
  apply h.members_nodup p hp.right

include hvalid

theorem members_valid_without_iff
    : (∀ p, impl'.groupAt p = true → ∀ m ∈ impl'.childrenOf p, impl'.valid m = true)
        ↔ ∀ p, impl.groupAt p = true → n ∈ impl.childrenOf p → p = n := by
  constructor
  . intro hmembers p hp hmem
    by_contra hne
    have := hmembers p (by simp [hgroup, hne, hp]) n (by rwa [hchildren])
    simp [hvalid] at this
  . intro hfree p hp m hmem
    rw [hgroup] at hp
    rw [hchildren] at hmem
    rw [hvalid]
    simp only [Bool.and_eq_true, bne_iff_ne] at hp ⊢
    constructor
    . intro heq
      rw [heq] at hmem
      apply hp.left (hfree p hp.right hmem)
    . apply h.members_valid p hp.right m hmem

end Without

theorem groupsValid_removeNode_iff (impl : Impl) (n : Int) (h : impl.GroupsValid)
    (hn : impl.valid n = true)
    : (impl.removeNode n).GroupsValid
        ↔
      (∀ p, impl.groupAt p = true → n ∈ impl.childrenOf p → p = n)
        ∧ (impl.groupAt n = true → ∀ m ∈ impl.childrenOf n, m = n) := by
  have hvalid := fun k => valid_removeNode impl n k
  have hgroup := fun k => groupAt_removeNode impl n k hn
  have hchildren := fun k => childrenOf_removeNode impl n k hn
  have hparent := fun k => parentOf_removeNode impl n k hn
  constructor
  . intro h'
    constructor
    . apply (members_valid_without_iff h hvalid hgroup hchildren).mp h'.members_valid
    . intro hlive m hmem
      by_contra hne
      have hm := h.members_valid n hlive m hmem
      have hpm := (h.mem_iff n m hlive hm).mp hmem
      have := valid_lt_length impl n hn
      have hlost := h'.parent_live m (by simp [hvalid, hne, hm])
      rw [hparent, hgroup, hpm] at hlost
      simp only [bne_self_eq_false, Bool.false_and, Bool.false_eq_true, or_false] at hlost
      omega
  . intro ⟨hfree, hempty⟩
    constructor
    case members_valid => apply (members_valid_without_iff h hvalid hgroup hchildren).mpr hfree
    case members_nodup => apply members_nodup_without h hgroup hchildren
    case mem_iff =>
      intro p m hp hm
      rw [hgroup] at hp
      rw [hvalid] at hm
      rw [hchildren, hparent]
      simp only [Bool.and_eq_true] at hp hm
      apply h.mem_iff p m hp.right hm.right
    case parent_live =>
      intro m hm
      rw [hvalid] at hm
      rw [hparent, hgroup]
      simp only [Bool.and_eq_true, bne_iff_ne] at hm ⊢
      cases h.parent_live m hm.right with
      | inl hroot => exact .inl hroot
      | inr hlive =>
        right
        constructor
        . intro heq
          rw [heq] at hlive
          apply hm.left (hempty hlive m ((h.mem_iff n m hlive hm.right).mpr heq))
        . apply hlive

theorem groupsValid_createGroup_iff (impl : Impl) (members : List Int) (h : impl.GroupsValid)
    : (impl.createGroup members).2.GroupsValid
        ↔
      (createGroup.joined impl members).Nodup
        ∧ ∀ m ∈ members, impl.valid m = true → ∀ p, impl.groupAt p = true → m ∉ impl.childrenOf p := by
  have hvalid := fun k => valid_createGroup impl members k
  have hgroup := fun k => groupAt_createGroup impl members k
  have hchildren := fun k => childrenOf_createGroup impl members k
  have hparent := fun k => parentOf_createGroup impl members k
  have hjoined := fun k => createGroup.mem_joined_iff impl members k
  constructor
  . intro h'
    constructor
    . have := h'.members_nodup impl.nodes.length (by simp [hgroup])
      rw [hchildren] at this
      simpa using this
    . intro m hm hlive p hp hmem
      have hne := groupAt_ne_length impl p hp
      have := h'.mem_iff p m (by simp [hgroup, hp]) (by simp [hvalid, hlive])
      rw [hchildren, hparent] at this
      simp only [hne, ↓reduceIte, hmem, true_iff] at this
      rw [if_pos ((hjoined m).mpr ⟨hm, .inr hlive⟩)] at this
      apply hne this.symm
  . intro ⟨hnodup, hfree⟩
    constructor
    case members_valid =>
      intro p hp m hmem
      rw [hvalid]
      rw [hchildren] at hmem
      simp only [Bool.or_eq_true, beq_iff_eq]
      split at hmem
      . exact ((hjoined m).mp hmem).right
      . next hne =>
        rw [hgroup] at hp
        simp only [Bool.or_eq_true, beq_iff_eq, hne, false_or] at hp
        exact .inr (h.members_valid p hp m hmem)
    case members_nodup =>
      intro p hp
      rw [hchildren]
      split
      . apply hnodup
      . next hne =>
        rw [hgroup] at hp
        simp only [Bool.or_eq_true, beq_iff_eq, hne, false_or] at hp
        apply h.members_nodup p hp
    case mem_iff =>
      intro p m hp hm
      rw [hgroup] at hp
      rw [hvalid] at hm
      rw [hchildren, hparent]
      simp only [Bool.or_eq_true, beq_iff_eq] at hp hm
      split
      . next heq =>
        split
        . next hin => simp [hin, heq]
        . next hout =>
          simp only [hout, false_iff]
          intro hstale
          cases hm with
          | inl hnew =>
            rw [hnew, parentOf_length] at hstale
            omega
          | inr hold =>
            cases h.parent_live m hold with
            | inl hroot => omega
            | inr hlive => exact groupAt_ne_length impl _ hlive (by rw [hstale, heq])
      . next hne =>
        have hp : impl.groupAt p = true := by simpa [hne] using hp
        split
        . next hin =>
          have hout : m ∉ impl.childrenOf p := by
            cases hm with
            | inl hnew =>
              intro hmem
              apply ne_length_of_valid impl m (h.members_valid p hp m hmem) hnew
            | inr hold => exact hfree m ((hjoined m).mp hin).left hold p hp
          simp only [hout, false_iff]
          exact fun heq => hne heq.symm
        . next hout =>
          cases hm with
          | inl hnew =>
            have := valid_lt_length impl p (valid_of_groupAt impl p hp)
            have hnot : m ∉ impl.childrenOf p := by
              intro hmem
              apply ne_length_of_valid impl m (h.members_valid p hp m hmem) hnew
            simp only [hnot, false_iff]
            rw [hnew, parentOf_length]
            omega
          | inr hold => exact h.mem_iff p m hp hold
    case parent_live =>
      intro m hm
      rw [hvalid] at hm
      rw [hparent, hgroup]
      simp only [Bool.or_eq_true, beq_iff_eq] at hm ⊢
      split
      . exact .inr (.inl rfl)
      . cases hm with
        | inl hnew =>
          rw [hnew]
          exact .inl (parentOf_length impl)
        | inr hold =>
          cases h.parent_live m hold with
          | inl hroot => exact .inl hroot
          | inr hlive => exact .inr (.inr hlive)

theorem groupsValid_deleteGroup_iff (impl impl' : Impl) (n : Int) (h : impl.GroupsValid)
    (hdelete : impl.deleteGroup n = some impl')
    : impl'.GroupsValid ↔ ∀ p, impl.groupAt p = true → n ∈ impl.childrenOf p → p = n := by
  have hn := (deleteGroup_eq_some impl impl' n hdelete).left
  have hvalid := fun k => valid_deleteGroup impl impl' n k hdelete
  have hgroup := fun k => groupAt_deleteGroup impl impl' n k hdelete
  have hchildren := fun k => childrenOf_deleteGroup impl impl' n k hdelete
  have hparent := fun k => parentOf_deleteGroup impl impl' n k hdelete
  constructor
  . intro h'
    apply (members_valid_without_iff h hvalid hgroup hchildren).mp h'.members_valid
  . intro hfree
    constructor
    case members_valid => apply (members_valid_without_iff h hvalid hgroup hchildren).mpr hfree
    case members_nodup => apply members_nodup_without h hgroup hchildren
    case mem_iff =>
      intro p m hp hm
      rw [hgroup] at hp
      rw [hvalid] at hm
      rw [hchildren, hparent]
      simp only [Bool.and_eq_true, bne_iff_ne] at hp hm
      have hiff := h.mem_iff p m hp.right hm.right
      split
      . next hleft =>
        -- a member of the deleted group cannot be listed by another one
        have hpm := (h.mem_iff n m hn hm.right).mp hleft.left
        have := valid_lt_length impl p (valid_of_groupAt impl p hp.right)
        rw [hiff, hpm]
        constructor
        . exact fun heq => absurd heq.symm hp.left
        . omega
      . apply hiff
    case parent_live =>
      intro m hm
      rw [hvalid] at hm
      rw [hparent, hgroup]
      simp only [Bool.and_eq_true, bne_iff_ne] at hm ⊢
      split
      . exact .inl rfl
      . next hstay =>
        cases h.parent_live m hm.right with
        | inl hroot => exact .inl hroot
        | inr hlive =>
          right
          constructor
          . intro heq
            apply hstay ⟨(h.mem_iff n m hn hm.right).mpr heq, hm.right⟩
          . apply hlive

end Impl

def parentGroup (g : Graph) (node : Int) : Int :=
  match g.impl with
  | none => -1
  | some impl => impl.parentOf node

structure GroupsConsistent (g : Graph) : Prop where
  members_exist : ∀ p ms, g.groupMembers p = .ok ms → ∀ m ∈ ms, g.nodeExists m = true
  members_nodup : ∀ p ms, g.groupMembers p = .ok ms → ms.Nodup
  one_group : ∀ m p q ms ms', g.groupMembers p = .ok ms → g.groupMembers q = .ok ms'
    → m ∈ ms → m ∈ ms' → p = q
  mem_iff_parent : ∀ p ms m, g.groupMembers p = .ok ms → g.nodeExists m = true
    → (m ∈ ms ↔ g.parentGroup m = p)
  parent_live : ∀ m, g.nodeExists m = true
    → g.parentGroup m = -1 ∨ g.isGroup (g.parentGroup m) = true

theorem groupsConsistent_iff (impl : Impl) : GroupsConsistent ⟨some impl⟩ ↔ impl.GroupsValid := by
  constructor
  . intro h
    have hmembers := fun p hp => (groupMembers_eq_ok_iff impl p _).mpr ⟨hp, rfl⟩
    constructor
    case members_valid => exact fun p hp => h.members_exist p _ (hmembers p hp)
    case members_nodup => exact fun p hp => h.members_nodup p _ (hmembers p hp)
    case mem_iff => exact fun p m hp hm => h.mem_iff_parent p _ m (hmembers p hp) hm
    case parent_live =>
      intro m hm
      have := h.parent_live m hm
      rwa [isGroup_eq] at this
  . intro h
    constructor
    case members_exist =>
      intro p ms hms
      rcases (groupMembers_eq_ok_iff impl p ms).mp hms with ⟨hp, rfl⟩
      apply h.members_valid p hp
    case members_nodup =>
      intro p ms hms
      rcases (groupMembers_eq_ok_iff impl p ms).mp hms with ⟨hp, rfl⟩
      apply h.members_nodup p hp
    case one_group =>
      intro m p q ms ms' hms hms' hm hm'
      rcases (groupMembers_eq_ok_iff impl p ms).mp hms with ⟨hp, rfl⟩
      rcases (groupMembers_eq_ok_iff impl q ms').mp hms' with ⟨hq, rfl⟩
      have hlive := h.members_valid p hp m hm
      rw [← (h.mem_iff p m hp hlive).mp hm]
      exact (h.mem_iff q m hq hlive).mp hm'
    case mem_iff_parent =>
      intro p ms m hms hm
      rcases (groupMembers_eq_ok_iff impl p ms).mp hms with ⟨hp, rfl⟩
      apply h.mem_iff p m hp hm
    case parent_live =>
      intro m hm
      rw [isGroup_eq]
      apply h.parent_live m hm

/--
A node is only removed while no group lists it and, if it is a group itself, no node is left in it;
a group is only created from nodes that are in no group, each existing one listed once; a group is
only deleted while no other group lists it.
-/
def KeepsMembership (g : Graph) : Op → Prop
  | .removeNode node =>
    g.nodeExists node = true
      → (∀ p ms, g.groupMembers p = .ok ms → node ∈ ms → p = node)
          ∧ ∀ ms, g.groupMembers node = .ok ms → ∀ m ∈ ms, m = node
  | .createGroup nodes =>
    (nodes.filter g.addNode.2.nodeExists).Nodup
      ∧ ∀ m ∈ nodes, g.nodeExists m = true → ∀ p ms, g.groupMembers p = .ok ms → m ∉ ms
  | .deleteGroup group =>
    g.isGroup group = true → ∀ p ms, g.groupMembers p = .ok ms → group ∈ ms → p = group
  | _ => True

theorem groupsConsistent_none : GroupsConsistent ⟨none⟩ := by
  constructor <;> simp [groupMembers, nodeExists]

theorem nodeExists_none : nodeExists ⟨none⟩ = fun _ => false := rfl

theorem nodeExists_some (impl : Impl) : nodeExists ⟨some impl⟩ = impl.valid := rfl

theorem keepsMembership_none (op : Op) : KeepsMembership ⟨none⟩ op := by
  cases op <;> simp [KeepsMembership, groupMembers, nodeExists_none, isGroup, addNode]

theorem groupsConsistent_of_nodes_eq (impl impl' : Impl) (h : impl.GroupsValid)
    (hnodes : impl'.nodes = impl.nodes) : GroupsConsistent ⟨some impl'⟩ := by
  have hnode : impl'.node? = impl.node? := by
    funext n
    simp [Impl.node?, hnodes]
  rw [groupsConsistent_iff]
  apply Impl.groupsValid_of_eq impl impl' h
    <;> simp [Impl.valid, Impl.groupAt, Impl.childrenOf, Impl.parentOf, hnode]

theorem groupsConsistent_step_iff (g : Graph) (op : Op) (h : g.GroupsConsistent)
    : (g.step op).GroupsConsistent ↔ g.KeepsMembership op := by
  rcases g with ⟨_ | impl⟩
  . have : step ⟨none⟩ op = ⟨none⟩ := by cases op <;> rfl
    rw [this]
    simp [groupsConsistent_none, keepsMembership_none]
  . have hconsistent := h
    rw [groupsConsistent_iff] at h
    cases op with
    | addNode =>
      simp only [KeepsMembership, iff_true]
      exact (groupsConsistent_iff _).mpr (Impl.groupsValid_addNode impl h)
    | removeNode node =>
      simp only [KeepsMembership, step, removeNode, nodeExists]
      split
      . next hdead =>
        simp only [Bool.not_eq_true'] at hdead
        simp [hconsistent, hdead]
      . next hvalid =>
        simp only [Bool.not_eq_true', Bool.not_eq_false] at hvalid
        rw [groupsConsistent_iff]
        rw [Impl.groupsValid_removeNode_iff impl node h hvalid]
        simp [groupMembers_eq_ok_iff, hvalid]
    | addEdge source target =>
      simp only [KeepsMembership, iff_true, step, addEdge]
      split
      . apply hconsistent
      . exact groupsConsistent_of_nodes_eq impl _ h rfl
    | removeEdge source target =>
      simp only [KeepsMembership, iff_true, step, removeEdge, Impl.removeEdge]
      split
      . apply hconsistent
      . next hremove =>
        split at hremove
        . injection hremove with hremove
          subst hremove
          exact groupsConsistent_of_nodes_eq impl _ h rfl
        . simp at hremove
    | replaceEdge src dst newFrom newTo =>
      simp only [KeepsMembership, iff_true, step, replaceEdge, Impl.replaceEdge]
      split
      . apply hconsistent
      . next hreplace =>
        rw [Option.map_eq_some_iff] at hreplace
        rcases hreplace with ⟨es, _, rfl⟩
        exact groupsConsistent_of_nodes_eq impl _ h rfl
    | createGroup nodes =>
      simp only [KeepsMembership, step, createGroup]
      rw [groupsConsistent_iff]
      rw [Impl.groupsValid_createGroup_iff impl nodes h]
      simp [groupMembers_eq_ok_iff, Impl.createGroup.joined, addNode, nodeExists_some]
    | deleteGroup group =>
      simp only [KeepsMembership, step, deleteGroup]
      split
      . next hdelete =>
        rw [deleteGroup_eq_none_iff] at hdelete
        simp [hconsistent, hdelete]
      . next hdelete =>
        have hgroup := (Impl.deleteGroup_eq_some impl _ group hdelete).left
        rw [groupsConsistent_iff]
        rw [Impl.groupsValid_deleteGroup_iff impl _ group h hdelete]
        simp [groupMembers_eq_ok_iff, isGroup_eq, hgroup]
    | setGroupExpanded group expanded =>
      simp only [KeepsMembership, iff_true, step, setGroupExpanded]
      split
      . apply hconsistent
      . rw [groupsConsistent_iff]
        apply Impl.groupsValid_of_eq impl _ h
        . exact fun n => Impl.valid_modifyNode _ _ _ _ (by simp)
        . exact fun n => Impl.groupAt_modifyNode _ _ _ _ (by simp)
        . exact fun n => Impl.childrenOf_modifyNode _ _ _ _ (by simp)
        . exact fun n => Impl.parentOf_modifyNode _ _ _ _ (by simp)
    | clear =>
      simp only [KeepsMembership, iff_true]
      apply (groupsConsistent_iff _).mpr
      have hnone : ∀ (n : Int), impl.clear.node? n = none := by simp [Impl.node?, Impl.clear]
      constructor <;> simp [Impl.valid, Impl.groupAt, hnone]

theorem groupsConsistent_empty : GroupsConsistent empty := by
  apply (groupsConsistent_iff _).mpr
  have hnone : ∀ (n : Int), Impl.node? {} n = none := by simp [Impl.node?]
  constructor <;> simp [Impl.valid, Impl.groupAt, hnone]

theorem always_groupsConsistent_iff (ops : List Op)
    : Machine.Always step GroupsConsistent empty ops ↔ Machine.Guarded step KeepsMembership empty ops := by
  apply Machine.always_iff_guarded
  . apply groupsConsistent_step_iff
  . apply groupsConsistent_empty

theorem stale_membership_reachable
    : ¬(∀ (ops : List Op), (Machine.run step empty ops).GroupsConsistent) := by
  intro h
  have := (h [.addNode, .createGroup [0], .removeNode 0]).members_exist 1 [0] (by decide) 0 (by decide)
  revert this
  decide

end Graph
end Idax
