import Mathlib.Logic.Relation
import Idax.Graph.Groups

/-!
Which nodes `visibleNodes` lists. A collapsed group hides its contents, and the contents of the groups
in it, but the functions that list and count the visible nodes do not look at `collapsed`.
-/

namespace Idax
namespace Graph

/--
The two records of who is in which group: the list of the group, and the parent of the node.
-/
inductive GroupRecord where
  | children
  | parentGroup
  deriving DecidableEq, Repr

def InGroup (record : GroupRecord) (g : Graph) (node group : Int) : Prop :=
  match record with
  | .children => ∃ ms, g.groupMembers group = .ok ms ∧ node ∈ ms
  | .parentGroup => g.isGroup group = true ∧ g.parentGroup node = group

def Hidden (record : GroupRecord) (g : Graph) (node : Int) : Prop :=
  ∃ group, Relation.TransGen (InGroup record g) node group ∧ g.isCollapsed group = true

structure VisibleExact (record : GroupRecord) (g : Graph) : Prop where
  ascending : g.visibleNodes.Pairwise (· < ·)
  mem_iff : ∀ n, n ∈ g.visibleNodes ↔ g.nodeExists n = true ∧ ¬Hidden record g n
  count : g.visibleNodeCount = g.visibleNodes.length

def NothingHidden (record : GroupRecord) (g : Graph) : Prop :=
  ∀ n group, g.nodeExists n = true → InGroup record g n group → g.isCollapsed group = false

theorem ascending_visibleNodes (g : Graph) : g.visibleNodes.Pairwise (· < ·) := by
  unfold visibleNodes
  split
  . exact .nil
  . apply List.Pairwise.filter
    rw [List.pairwise_map]
    apply List.pairwise_lt_range.imp
    intro a b hlt
    simpa using hlt

theorem mem_visibleNodes_iff (g : Graph) (n : Int)
    : n ∈ g.visibleNodes ↔ g.nodeExists n = true := by
  unfold visibleNodes nodeExists
  split
  . simp
  . next impl _ =>
    rw [List.mem_filter, List.mem_map]
    constructor
    . exact fun h => h.right
    . intro hvalid
      have := Impl.valid_lt_length impl n hvalid
      refine ⟨⟨n.toNat, ?_, ?_⟩, hvalid⟩
      . simp only [Impl.totalCount, List.mem_range]
        omega
      . simp
        omega

theorem countP_range_getElem? (p : NodeData → Bool) (nodes : List NodeData)
    : ((List.range nodes.length).countP fun i => nodes[i]?.any p) = nodes.countP p := by
  induction nodes with
  | nil => rfl
  | cons data nodes ih =>
    rw [List.length_cons, List.range_succ_eq_map, List.countP_cons, List.countP_map, List.countP_cons]
    rw [← ih]
    rfl

theorem visibleNodeCount_eq (g : Graph) : g.visibleNodeCount = g.visibleNodes.length := by
  unfold visibleNodeCount visibleNodes
  split
  . rfl
  . next impl _ =>
    rw [Impl.visibleCount, Impl.totalCount, Int.toNat_natCast, ← List.countP_eq_length_filter]
    rw [List.countP_map, ← countP_range_getElem?]
    congr 1

theorem exists_of_inGroup {record : GroupRecord} {g : Graph} {n group : Int}
    (h : InGroup record g n group) : g.nodeExists group = true := by
  have hgroup : g.isGroup group = true := by
    cases record with
    | children =>
      rcases h with ⟨ms, hms, _⟩
      rcases g with ⟨_ | impl⟩
      . cases hms
      . rw [isGroup_eq]
        exact ((groupMembers_eq_ok_iff impl group ms).mp hms).left
    | parentGroup => exact h.left
  rcases g with ⟨_ | impl⟩
  . cases hgroup
  . rw [isGroup_eq] at hgroup
    apply Impl.valid_of_groupAt impl group hgroup

theorem visibleExact_iff (record : GroupRecord) (g : Graph)
    : VisibleExact record g ↔ NothingHidden record g := by
  constructor
  . intro h n group hn hin
    rw [← Bool.not_eq_true]
    intro hcollapsed
    have hvisible := (h.mem_iff n).mp ((mem_visibleNodes_iff g n).mpr hn)
    apply hvisible.right ⟨group, .single hin, hcollapsed⟩
  . intro h
    constructor
    case ascending => apply ascending_visibleNodes
    case count => apply visibleNodeCount_eq
    case mem_iff =>
      intro n
      rw [mem_visibleNodes_iff, iff_self_and]
      intro hn ⟨group, hpath, hcollapsed⟩
      rw [Relation.TransGen.tail'_iff] at hpath
      rcases hpath with ⟨inner, hpath, hin⟩
      have hinner : g.nodeExists inner = true := by
        cases hpath with
        | refl => exact hn
        | tail _ hlast => apply exists_of_inGroup hlast
      rw [h inner group hinner hin] at hcollapsed
      cases hcollapsed

namespace Impl

def collapsedAt (impl : Impl) (n : Int) : Bool :=
  (impl.node? n).any fun data => data.alive && data.collapsed

def InGroup (record : GroupRecord) (impl : Impl) (node group : Int) : Prop :=
  impl.groupAt group = true ∧
    match record with
    | .children => node ∈ impl.childrenOf group
    | .parentGroup => impl.parentOf node = group

def NothingHidden (record : GroupRecord) (impl : Impl) : Prop :=
  ∀ n group, impl.valid n = true → InGroup record impl n group → impl.collapsedAt group = false

def ChildrenInTable (impl : Impl) : Prop :=
  ∀ group n, n ∈ impl.childrenOf group → n < impl.nodes.length

theorem length_modifyNode (impl : Impl) (m : Int) (f : NodeData → NodeData)
    : (impl.modifyNode m f).nodes.length = impl.nodes.length := by
  unfold modifyNode
  split <;> simp

theorem length_removeNode (impl : Impl) (m : Int)
    : (impl.removeNode m).nodes.length = impl.nodes.length := by
  unfold removeNode
  split
  . rfl
  . apply length_modifyNode

theorem createGroup.length_foldl_join (impl : Impl) (gid : Int) (members : List Int)
    : (members.foldl (join gid) impl).nodes.length = impl.nodes.length := by
  induction members generalizing impl with
  | nil => rfl
  | cons m ms ih =>
    rw [List.foldl_cons, ih]
    unfold join
    split
    . rw [length_modifyNode, length_modifyNode]
    . rfl

theorem length_createGroup (impl : Impl) (members : List Int)
    : (impl.createGroup members).2.nodes.length = impl.nodes.length + 1 := by
  unfold createGroup
  dsimp
  rw [createGroup.length_foldl_join, length_modifyNode]
  simp [addNode]

theorem deleteGroup.length_foldl_leave (impl : Impl) (children : List Int)
    : (children.foldl leave impl).nodes.length = impl.nodes.length := by
  induction children generalizing impl with
  | nil => rfl
  | cons c cs ih =>
    rw [List.foldl_cons, ih]
    unfold leave
    split
    . rw [length_modifyNode]
    . rfl

theorem length_deleteGroup (impl impl' : Impl) (group : Int)
    (h : impl.deleteGroup group = some impl') : impl'.nodes.length = impl.nodes.length := by
  rcases deleteGroup_eq_some impl impl' group h with ⟨_, rfl⟩
  rw [length_modifyNode, deleteGroup.length_foldl_leave]

theorem collapsedAt_addNode (impl : Impl) (n : Int)
    : impl.addNode.2.collapsedAt n = impl.collapsedAt n := by
  unfold collapsedAt
  rw [node?_addNode]
  split
  . next heq => simp [heq, node?_length]
  . rfl

theorem collapsedAt_modifyNode_dead (impl : Impl) (m n : Int)
    : (impl.modifyNode m fun data => { data with alive := false }).collapsedAt n
        = (n != m && impl.collapsedAt n) := by
  unfold collapsedAt
  rw [node?_modifyNode]
  by_cases heq : n = m
  . simp [heq, Option.any_map]
  . simp [heq]

theorem collapsedAt_removeNode (impl : Impl) (m n : Int) (hm : impl.valid m = true)
    : (impl.removeNode m).collapsedAt n = (n != m && impl.collapsedAt n) := by
  rw [← collapsedAt_modifyNode_dead]
  unfold collapsedAt
  rw [node?_removeNode impl m n hm]

theorem collapsedAt_createGroup (impl : Impl) (members : List Int) (n : Int)
    : (impl.createGroup members).2.collapsedAt n = impl.collapsedAt n := by
  unfold collapsedAt
  rw [node?_createGroup]
  split
  . next heq => simp [heq, node?_length, createGroup.takeIn]
  . simp [createGroup.takeIn, Option.any_map]

theorem collapsedAt_deleteGroup (impl impl' : Impl) (group n : Int)
    (h : impl.deleteGroup group = some impl')
    : impl'.collapsedAt n = (n != group && impl.collapsedAt n) := by
  rcases deleteGroup_eq_some impl impl' group h with ⟨_, rfl⟩
  rw [collapsedAt_modifyNode_dead]
  unfold collapsedAt
  rw [deleteGroup.node?_foldl_leave]
  cases impl.node? n with
  | none => simp
  | some data => by_cases hc : n ∈ impl.childrenOf group ∧ data.alive = true <;> simp [hc]

theorem collapsedAt_setCollapsed (impl : Impl) (m n : Int) (collapsed : Bool)
    : (impl.modifyNode m fun data => { data with collapsed }).collapsedAt n
        = if n = m then impl.valid n && collapsed else impl.collapsedAt n := by
  unfold collapsedAt valid
  rw [node?_modifyNode]
  split
  . next heq =>
    subst heq
    cases impl.node? n <;> simp
  . rfl

theorem childrenInTable_of_eq (impl impl' : Impl) (h : impl.ChildrenInTable)
    (hchildren : ∀ (n : Int), impl'.childrenOf n = impl.childrenOf n)
    (hlength : impl.nodes.length ≤ impl'.nodes.length) : impl'.ChildrenInTable := by
  intro group n hn
  rw [hchildren] at hn
  have := h group n hn
  omega

theorem childrenInTable_createGroup (impl : Impl) (members : List Int) (h : impl.ChildrenInTable)
    : (impl.createGroup members).2.ChildrenInTable := by
  intro group n hn
  rw [childrenOf_createGroup] at hn
  rw [length_createGroup]
  split at hn
  . rw [createGroup.mem_joined_iff] at hn
    cases hn.right with
    | inl hnew => omega
    | inr hold =>
      have := valid_lt_length impl n hold
      omega
  . have := h group n hn
    omega

section Shrinks

variable {record : GroupRecord} {impl impl' : Impl} (h : NothingHidden record impl)
  (hvalid : ∀ n, impl'.valid n = true → impl.valid n = true)
  (hin : ∀ n group, InGroup record impl' n group → InGroup record impl n group)
  (hcollapsed : ∀ n, impl'.collapsedAt n = true → impl.collapsedAt n = true)

include h hvalid hin hcollapsed

theorem nothingHidden_of_shrinks : NothingHidden record impl' := by
  intro n group hn hmember
  have hold := h n group (hvalid n hn) (hin n group hmember)
  rw [← Bool.not_eq_true] at hold ⊢
  intro hnow
  apply hold (hcollapsed group hnow)

end Shrinks

theorem inGroup_of_eq {record : GroupRecord} {impl impl' : Impl}
    (hgroup : ∀ n, impl'.groupAt n = true → impl.groupAt n = true)
    (hchildren : ∀ n, impl'.childrenOf n = impl.childrenOf n)
    (hparent : ∀ n group, impl'.parentOf n = group → impl.groupAt group = true
      → impl.parentOf n = group)
    (n group : Int) (h : InGroup record impl' n group) : InGroup record impl n group := by
  refine ⟨hgroup group h.left, ?_⟩
  cases record with
  | children =>
    have hmem := h.right
    dsimp only at hmem ⊢
    rw [hchildren] at hmem
    apply hmem
  | parentGroup => apply hparent n group h.right (hgroup group h.left)

theorem not_groupAt_neg (impl : Impl) : impl.groupAt (-1) = false := by
  simp [groupAt, node?]

theorem nothingHidden_addNode {record : GroupRecord} (impl : Impl) (hchildren : impl.ChildrenInTable)
    (h : NothingHidden record impl) : NothingHidden record impl.addNode.2 := by
  intro n group hn hmember
  rw [collapsedAt_addNode]
  rw [valid_addNode] at hn
  have hmember : InGroup record impl n group := by
    apply inGroup_of_eq _ _ _ n group hmember
    . intro k hk
      rwa [groupAt_addNode] at hk
    . apply childrenOf_addNode
    . intro k p hk _
      rwa [parentOf_addNode] at hk
  simp only [Bool.or_eq_true, beq_iff_eq] at hn
  cases hn with
  | inr hold => apply h n group hold hmember
  | inl hnew =>
    -- no record knows the new node yet
    exfalso
    cases record with
    | children =>
      have := hchildren group n hmember.right
      omega
    | parentGroup =>
      have hgroup := hmember.left
      have hparent : impl.parentOf n = group := hmember.right
      rw [hnew, parentOf_length] at hparent
      rw [← hparent, not_groupAt_neg] at hgroup
      cases hgroup

theorem nothingHidden_removeNode {record : GroupRecord} (impl : Impl) (m : Int)
    (hm : impl.valid m = true) (h : NothingHidden record impl)
    : NothingHidden record (impl.removeNode m) := by
  apply nothingHidden_of_shrinks h
  . intro n hn
    rw [valid_removeNode, Bool.and_eq_true] at hn
    apply hn.right
  . apply inGroup_of_eq
    . intro n hn
      rw [groupAt_removeNode impl m n hm, Bool.and_eq_true] at hn
      apply hn.right
    . exact fun n => childrenOf_removeNode impl m n hm
    . intro n group hn _
      rwa [parentOf_removeNode impl m n hm] at hn
  . intro n hn
    rw [collapsedAt_removeNode impl m n hm, Bool.and_eq_true] at hn
    apply hn.right

theorem nothingHidden_createGroup {record : GroupRecord} (impl : Impl) (members : List Int)
    (hchildren : impl.ChildrenInTable) (h : NothingHidden record impl)
    : NothingHidden record (impl.createGroup members).2 := by
  have hlength : impl.collapsedAt impl.nodes.length = false := by
    simp [collapsedAt, node?_length]
  intro n group hn hmember
  rw [collapsedAt_createGroup]
  by_cases hgroup : group = impl.nodes.length
  . rw [hgroup]
    apply hlength
  . have hold := hmember.left
    rw [groupAt_createGroup] at hold
    simp only [Bool.or_eq_true, beq_iff_eq, hgroup, false_or] at hold
    rw [valid_createGroup] at hn
    simp only [Bool.or_eq_true, beq_iff_eq] at hn
    cases record with
    | children =>
      have hmem := hmember.right
      dsimp only at hmem
      rw [childrenOf_createGroup, if_neg hgroup] at hmem
      cases hn with
      | inl hnew =>
        have := hchildren group n hmem
        omega
      | inr hvalid => exact h n group hvalid ⟨hold, hmem⟩
    | parentGroup =>
      have hparent := hmember.right
      dsimp only at hparent
      rw [parentOf_createGroup] at hparent
      split at hparent
      . exact absurd hparent.symm hgroup
      . cases hn with
        | inl hnew =>
          rw [hnew, parentOf_length] at hparent
          rw [← hparent, not_groupAt_neg] at hold
          cases hold
        | inr hvalid => exact h n group hvalid ⟨hold, hparent⟩

theorem nothingHidden_deleteGroup {record : GroupRecord} (impl impl' : Impl) (m : Int)
    (hdelete : impl.deleteGroup m = some impl') (h : NothingHidden record impl)
    : NothingHidden record impl' := by
  apply nothingHidden_of_shrinks h
  . intro n hn
    rw [valid_deleteGroup impl impl' m n hdelete, Bool.and_eq_true] at hn
    apply hn.right
  . apply inGroup_of_eq
    . intro n hn
      rw [groupAt_deleteGroup impl impl' m n hdelete, Bool.and_eq_true] at hn
      apply hn.right
    . exact fun n => childrenOf_deleteGroup impl impl' m n hdelete
    . intro n group hn hgroup
      rw [parentOf_deleteGroup impl impl' m n hdelete] at hn
      split at hn
      . rw [← hn, not_groupAt_neg] at hgroup
        cases hgroup
      . exact hn
  . intro n hn
    rw [collapsedAt_deleteGroup impl impl' m n hdelete, Bool.and_eq_true] at hn
    apply hn.right

theorem nothingHidden_setCollapsed_iff {record : GroupRecord} (impl : Impl) (m : Int)
    (collapsed : Bool) (h : NothingHidden record impl)
    : NothingHidden record (impl.modifyNode m fun data => { data with collapsed })
        ↔ (collapsed = true → ∀ n, impl.valid n = true → ¬InGroup record impl n m) := by
  have hin : ∀ n group,
      InGroup record (impl.modifyNode m fun data => { data with collapsed }) n group
        ↔ InGroup record impl n group := by
    intro n group
    unfold InGroup
    rw [groupAt_modifyNode _ _ _ _ (by simp), childrenOf_modifyNode _ _ _ _ (by simp)]
    rw [parentOf_modifyNode _ _ _ _ (by simp)]
  unfold NothingHidden
  simp only [hin, collapsedAt_setCollapsed]
  simp only [valid_modifyNode impl m _ (fun data => { data with collapsed }) (by simp)]
  constructor
  . intro h' hcollapsed n hn hmember
    have := h' n m hn hmember
    rw [if_pos rfl, valid_of_groupAt impl m hmember.left, hcollapsed] at this
    cases this
  . intro hempty n group hn hmember
    split
    . next heq =>
      subst heq
      rw [Bool.and_eq_false_imp]
      intro _
      rw [← Bool.not_eq_true]
      intro hcollapsed
      apply hempty hcollapsed n hn hmember
    . apply h n group hn hmember

end Impl

theorem inGroup_some (record : GroupRecord) (impl : Impl) (n group : Int)
    : InGroup record ⟨some impl⟩ n group ↔ Impl.InGroup record impl n group := by
  cases record with
  | children =>
    unfold InGroup Impl.InGroup
    dsimp only
    simp only [groupMembers_eq_ok_iff]
    constructor
    . intro ⟨ms, ⟨hgroup, hms⟩, hmem⟩
      rw [hms] at hmem
      exact ⟨hgroup, hmem⟩
    . intro ⟨hgroup, hmem⟩
      exact ⟨_, ⟨hgroup, rfl⟩, hmem⟩
  | parentGroup =>
    unfold InGroup Impl.InGroup
    dsimp only
    rw [isGroup_eq]
    rfl

theorem isCollapsed_some (impl : Impl) (n : Int)
    : isCollapsed ⟨some impl⟩ n = impl.collapsedAt n := by
  unfold isCollapsed Impl.collapsedAt Impl.valid
  cases hdata : impl.node? n with
  | none => simp [hdata]
  | some data => simp [hdata]

theorem nothingHidden_some (record : GroupRecord) (impl : Impl)
    : NothingHidden record ⟨some impl⟩ ↔ Impl.NothingHidden record impl := by
  unfold NothingHidden Impl.NothingHidden
  simp only [inGroup_some, isCollapsed_some, nodeExists_some]

theorem nothingHidden_none (record : GroupRecord) : NothingHidden record ⟨none⟩ := by
  intro n group hn
  cases hn

def ChildrenInTable (g : Graph) : Prop :=
  ∀ impl, g.impl = some impl → impl.ChildrenInTable

def CollapsesEmpty (record : GroupRecord) (g : Graph) : Op → Prop
  | .setGroupExpanded group false => ∀ n, g.nodeExists n = true → ¬InGroup record g n group
  | _ => True

theorem Impl.node?_clear (impl : Impl) (n : Int) : impl.clear.node? n = none := by
  simp [Impl.node?, Impl.clear]

theorem childrenInTable_step (g : Graph) (op : Op) (h : g.ChildrenInTable)
    : (g.step op).ChildrenInTable := by
  rcases g with ⟨_ | impl⟩
  . have : step ⟨none⟩ op = ⟨none⟩ := by cases op <;> rfl
    rw [this]
    exact h
  . have himpl := h impl rfl
    have hkeep : ∀ impl' : Impl, (∀ n, impl'.childrenOf n = impl.childrenOf n)
        → impl.nodes.length ≤ impl'.nodes.length → ChildrenInTable ⟨some impl'⟩ := by
      intro impl' hchildren hlength _ heq
      cases heq
      exact Impl.childrenInTable_of_eq impl impl' himpl hchildren hlength
    cases op with
    | addNode =>
      apply hkeep _ (Impl.childrenOf_addNode impl)
      simp [Impl.addNode]
    | removeNode node =>
      simp only [step, removeNode]
      split
      . exact h
      . next hvalid =>
        apply hkeep _ fun n => Impl.childrenOf_removeNode impl node n (by simpa using hvalid)
        rw [Impl.length_removeNode]
    | addEdge source target =>
      simp only [step, addEdge]
      split
      . exact h
      . exact hkeep _ (fun _ => rfl) (Nat.le_refl _)
    | removeEdge source target =>
      simp only [step, removeEdge, Impl.removeEdge]
      split
      . exact h
      . next hremove =>
        split at hremove
        . cases hremove
          exact hkeep _ (fun _ => rfl) (Nat.le_refl _)
        . cases hremove
    | replaceEdge src dst newFrom newTo =>
      simp only [step, replaceEdge, Impl.replaceEdge]
      split
      . exact h
      . next hreplace =>
        rw [Option.map_eq_some_iff] at hreplace
        rcases hreplace with ⟨es, _, rfl⟩
        exact hkeep _ (fun _ => rfl) (Nat.le_refl _)
    | createGroup nodes =>
      intro _ heq
      cases heq
      exact Impl.childrenInTable_createGroup impl nodes himpl
    | deleteGroup group =>
      simp only [step, deleteGroup]
      split
      . exact h
      . next hdelete =>
        apply hkeep _ fun n => Impl.childrenOf_deleteGroup impl _ group n hdelete
        rw [Impl.length_deleteGroup impl _ group hdelete]
    | setGroupExpanded group expanded =>
      simp only [step, setGroupExpanded]
      split
      . exact h
      . apply hkeep _ fun n => Impl.childrenOf_modifyNode _ _ _ _ (by simp)
        rw [Impl.length_modifyNode]
    | clear =>
      intro _ heq
      cases heq
      intro group n hn
      simp [Impl.childrenOf, Impl.node?_clear] at hn

theorem nothingHidden_step_iff (record : GroupRecord) (g : Graph) (op : Op) (hchildren : g.ChildrenInTable)
    (h : NothingHidden record g) : NothingHidden record (g.step op) ↔ CollapsesEmpty record g op := by
  rcases g with ⟨_ | impl⟩
  . have : step ⟨none⟩ op = ⟨none⟩ := by cases op <;> rfl
    rw [this]
    simp only [nothingHidden_none, true_iff]
    unfold CollapsesEmpty
    split
    . intro n hn
      cases hn
    . trivial
  . have himpl := (nothingHidden_some record impl).mp h
    have hkeep : ∀ impl' : Impl, impl'.nodes = impl.nodes → NothingHidden record ⟨some impl'⟩ := by
      intro impl' hnodes
      rw [show impl' = { impl with edgeList := impl'.edgeList } by rw [← hnodes]]
      exact h
    cases op with
    | addNode =>
      simp only [CollapsesEmpty, iff_true]
      exact (nothingHidden_some record _).mpr
        (Impl.nothingHidden_addNode impl (hchildren impl rfl) himpl)
    | removeNode node =>
      simp only [CollapsesEmpty, iff_true, step, removeNode]
      split
      . exact h
      . next hvalid =>
        rw [nothingHidden_some]
        apply Impl.nothingHidden_removeNode impl node _ himpl
        simpa using hvalid
    | addEdge source target =>
      simp only [CollapsesEmpty, iff_true, step, addEdge]
      split
      . exact h
      . exact hkeep _ rfl
    | removeEdge source target =>
      simp only [CollapsesEmpty, iff_true, step, removeEdge, Impl.removeEdge]
      split
      . exact h
      . next hremove =>
        split at hremove
        . cases hremove
          exact hkeep _ rfl
        . cases hremove
    | replaceEdge src dst newFrom newTo =>
      simp only [CollapsesEmpty, iff_true, step, replaceEdge, Impl.replaceEdge]
      split
      . exact h
      . next hreplace =>
        rw [Option.map_eq_some_iff] at hreplace
        rcases hreplace with ⟨es, _, rfl⟩
        exact hkeep _ rfl
    | createGroup nodes =>
      simp only [CollapsesEmpty, iff_true]
      exact (nothingHidden_some record _).mpr
        (Impl.nothingHidden_createGroup impl nodes (hchildren impl rfl) himpl)
    | deleteGroup group =>
      simp only [CollapsesEmpty, iff_true, step, deleteGroup]
      split
      . exact h
      . next hdelete =>
        rw [nothingHidden_some]
        apply Impl.nothingHidden_deleteGroup impl _ group hdelete himpl
    | setGroupExpanded group expanded =>
      simp only [step, setGroupExpanded]
      split
      . next hgroup =>
        simp only [h, true_iff]
        cases expanded with
        | true => trivial
        | false =>
          intro n _ hmember
          rw [inGroup_some] at hmember
          rw [isGroup_eq, hmember.left] at hgroup
          cases hgroup
      . rw [nothingHidden_some, Impl.nothingHidden_setCollapsed_iff impl group _ himpl]
        cases expanded with
        | true => simp [CollapsesEmpty]
        | false => simp [CollapsesEmpty, inGroup_some, nodeExists_some]
    | clear =>
      simp only [CollapsesEmpty, iff_true]
      intro n group hn
      simp [step, clear, nodeExists_some, Impl.valid, Impl.node?_clear] at hn

/--
The visible nodes are listed as they should be along a run exactly when the run collapses no group that
an existing node is in.
-/
theorem always_visibleExact_iff (record : GroupRecord) (ops : List Op)
    : Machine.Always step (VisibleExact record) empty ops
        ↔ Machine.Guarded step (CollapsesEmpty record) empty ops := by
  apply Machine.always_iff_guarded_of_invariant childrenInTable_step
  . intro g op hchildren h
    rw [visibleExact_iff] at h ⊢
    apply nothingHidden_step_iff record g op hchildren h
  . intro impl heq group n hn
    cases heq
    simp [Impl.childrenOf, Impl.node?] at hn
  . rw [visibleExact_iff]
    intro n group hn
    simp [empty, nodeExists_some, Impl.valid, Impl.node?] at hn

theorem hidden_node_listed
    : ¬∃ (record : GroupRecord), ∀ (ops : List Op), VisibleExact record (Machine.run step empty ops) := by
  rintro ⟨record, h⟩
  have hexact := h [.addNode, .createGroup [0], .setGroupExpanded 1 false]
  have hvisible := ((hexact.mem_iff 0).mp (by decide)).right
  apply hvisible ⟨1, .single _, by decide⟩
  cases record with
  | children => exact ⟨[0], by decide, by decide⟩
  | parentGroup => exact ⟨by decide, by decide⟩

end Graph
end Idax
