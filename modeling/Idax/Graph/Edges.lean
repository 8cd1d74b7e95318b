import Idax.Library.Machine
import Idax.Graph.Lemmas.Basic

/-!
Which runs of graph operations keep every edge between nodes that exist. `addEdge` checks its
endpoints and `removeNode` drops the edges of the node it kills; `replaceEdge` takes its new
endpoints unchecked and `deleteGroup` kills the group node without looking at its edges.
-/

namespace Idax
namespace Graph

namespace Impl

def EdgesValid (impl : Impl) : Prop :=
  ∀ e ∈ impl.edgeList, impl.valid e.1 = true ∧ impl.valid e.2 = true

theorem edgesValid_of_valid_mono (impl impl' : Impl) (h : impl.EdgesValid)
    (hedges : impl'.edgeList = impl.edgeList)
    (hvalid : ∀ (n : Int), impl.valid n = true → impl'.valid n = true)
    : impl'.EdgesValid := by
  intro e he
  rw [hedges] at he
  have ⟨hsource, htarget⟩ := h e he
  exact ⟨hvalid e.1 hsource, hvalid e.2 htarget⟩

theorem edgesValid_addNode (impl : Impl) (h : impl.EdgesValid) : impl.addNode.2.EdgesValid := by
  apply edgesValid_of_valid_mono impl _ h
  . rfl
  . intro n hn
    rw [valid_addNode]
    simp [hn]

theorem removeNode_edgeList (impl : Impl) (m : Int) (hm : impl.valid m = true)
    : (impl.removeNode m).edgeList
        =
      impl.edgeList.filter fun e => !(e.1 == m || e.2 == m) := by
  unfold removeNode
  simp [hm]

theorem edgesValid_removeNode (impl : Impl) (m : Int) (h : impl.EdgesValid)
    (hm : impl.valid m = true) : (impl.removeNode m).EdgesValid := by
  intro e he
  rw [removeNode_edgeList impl m hm] at he
  rw [List.mem_filter] at he
  rw [valid_removeNode, valid_removeNode]
  have ⟨hsource, htarget⟩ := h e he.left
  have hkept := he.right
  simp only [Bool.not_eq_true', Bool.or_eq_false_iff] at hkept
  simp [bne, hkept, hsource, htarget]

theorem edgesValid_addEdge (impl : Impl) (s t : Int) (h : impl.EdgesValid)
    (hs : impl.valid s = true) (ht : impl.valid t = true) : (impl.addEdge s t).EdgesValid := by
  intro e he
  simp only [addEdge, List.mem_append, List.mem_singleton] at he
  cases he with
  | inl he => exact h e he
  | inr he =>
    subst he
    exact ⟨hs, ht⟩

theorem edgesValid_removeEdge (impl impl' : Impl) (s t : Int) (h : impl.EdgesValid)
    (hremove : impl.removeEdge s t = some impl') : impl'.EdgesValid := by
  unfold removeEdge at hremove
  split at hremove
  . injection hremove with hremove
    subst hremove
    intro e he
    apply h e (List.mem_of_mem_erase he)
  . simp at hremove

theorem replaceEdge.go_eq_none_iff (src dst nf nt : Int) (es : List (Int × Int))
    : go src dst nf nt es = none ↔ (src, dst) ∉ es := by
  induction es with
  | nil => simp [go]
  | cons e es ih =>
    unfold go
    split
    . next hmatch =>
      simp only [Bool.and_eq_true, beq_iff_eq] at hmatch
      have : e = (src, dst) := Prod.ext hmatch.left hmatch.right
      simp [this]
    . next hne =>
      have : (src, dst) ≠ e := by
        intro heq
        simp [← heq] at hne
      rw [Option.map_eq_none_iff]
      rw [ih]
      simp [this]

theorem replaceEdge.mem_go (src dst nf nt : Int) (es es' : List (Int × Int))
    (h : go src dst nf nt es = some es')
    : (nf, nt) ∈ es' ∧ ∀ e ∈ es', e = (nf, nt) ∨ e ∈ es := by
  induction es generalizing es' with
  | nil => simp [go] at h
  | cons e es ih =>
    unfold go at h
    split at h
    . injection h with h
      subst h
      constructor
      . simp
      . intro e' he'
        rw [List.mem_cons] at he'
        cases he' with
        | inl heq => exact .inl heq
        | inr hmem => exact .inr (List.mem_cons_of_mem e hmem)
    . rw [Option.map_eq_some_iff] at h
      rcases h with ⟨rest, hrest, rfl⟩
      have ⟨hnew, hmem⟩ := ih rest hrest
      constructor
      . apply List.mem_cons_of_mem e hnew
      . intro e' he'
        rw [List.mem_cons] at he'
        cases he' with
        | inl heq =>
          rw [heq]
          exact .inr List.mem_cons_self
        | inr hold =>
          cases hmem e' hold with
          | inl heq => exact .inl heq
          | inr hes => exact .inr (List.mem_cons_of_mem e hes)

theorem edgesValid_replaceEdge_iff (impl impl' : Impl) (src dst nf nt : Int) (h : impl.EdgesValid)
    (hreplace : impl.replaceEdge src dst nf nt = some impl')
    : impl'.EdgesValid ↔ impl.valid nf = true ∧ impl.valid nt = true := by
  unfold replaceEdge at hreplace
  rw [Option.map_eq_some_iff] at hreplace
  rcases hreplace with ⟨es, hes, rfl⟩
  have ⟨hnew, hmem⟩ := replaceEdge.mem_go src dst nf nt impl.edgeList es hes
  constructor
  . intro hvalid
    apply hvalid (nf, nt) hnew
  . intro hends e he
    cases hmem e he with
    | inl heq =>
      rw [heq]
      apply hends
    | inr hold => exact h e hold

theorem createGroup.foldl_join_edgeList (impl : Impl) (gid : Int) (members : List Int)
    : (members.foldl (join gid) impl).edgeList = impl.edgeList := by
  induction members generalizing impl with
  | nil => rfl
  | cons m ms ih =>
    rw [List.foldl_cons]
    rw [ih]
    unfold join
    split <;> simp

theorem edgesValid_createGroup (impl : Impl) (members : List Int) (h : impl.EdgesValid)
    : (impl.createGroup members).2.EdgesValid := by
  apply edgesValid_of_valid_mono impl _ h
  . unfold createGroup
    dsimp
    rw [createGroup.foldl_join_edgeList]
    rw [modifyNode_edgeList]
    rfl
  . intro n hn
    rw [valid_createGroup]
    simp [hn]

theorem deleteGroup.foldl_leave_edgeList (impl : Impl) (children : List Int)
    : (children.foldl leave impl).edgeList = impl.edgeList := by
  induction children generalizing impl with
  | nil => rfl
  | cons c cs ih =>
    rw [List.foldl_cons]
    rw [ih]
    unfold leave
    split <;> simp

theorem edgesValid_deleteGroup_iff (impl impl' : Impl) (group : Int) (h : impl.EdgesValid)
    (hdelete : impl.deleteGroup group = some impl')
    : impl'.EdgesValid ↔ ∀ e ∈ impl.edgeList, e.1 ≠ group ∧ e.2 ≠ group := by
  have hedges : impl'.edgeList = impl.edgeList := by
    rcases (deleteGroup_eq_some_iff impl impl' group).mp hdelete with ⟨data, _, _, _, rfl⟩
    rw [modifyNode_edgeList]
    rw [deleteGroup.foldl_leave_edgeList]
  have hvalid := fun n => valid_deleteGroup impl impl' group n hdelete
  constructor
  . intro hkept e he
    rw [← hedges] at he
    have hends := hkept e he
    rw [hvalid, hvalid] at hends
    simp only [Bool.and_eq_true, bne_iff_ne] at hends
    exact ⟨hends.left.left, hends.right.left⟩
  . intro hfree e he
    rw [hedges] at he
    rw [hvalid, hvalid]
    have ⟨hsource, htarget⟩ := hfree e he
    simp [h e he, hsource, htarget]

end Impl

structure EdgesExist (g : Graph) : Prop where
  edges : ∀ e ∈ g.edges, g.nodeExists e.1 = true ∧ g.nodeExists e.2 = true
  successors : ∀ n ms, g.successors n = .ok ms → ∀ m ∈ ms, g.nodeExists m = true
  predecessors : ∀ n ms, g.predecessors n = .ok ms → ∀ m ∈ ms, g.nodeExists m = true

theorem edgesExist_iff (impl : Impl) : EdgesExist ⟨some impl⟩ ↔ impl.EdgesValid := by
  constructor
  . intro h
    apply h.edges
  . intro h
    constructor
    case edges => exact h
    case successors =>
      intro n ms hms m hm
      simp only [Graph.successors] at hms
      split at hms
      . simp at hms
      . injection hms with hms
        subst hms
        simp only [Impl.successorsOf, List.mem_filterMap] at hm
        rcases hm with ⟨e, he, hsome⟩
        split at hsome
        . injection hsome with hsome
          rw [← hsome]
          exact (h e he).right
        . simp at hsome
    case predecessors =>
      intro n ms hms m hm
      simp only [Graph.predecessors] at hms
      split at hms
      . simp at hms
      . injection hms with hms
        subst hms
        simp only [Impl.predecessorsOf, List.mem_filterMap] at hm
        rcases hm with ⟨e, he, hsome⟩
        split at hsome
        . injection hsome with hsome
          rw [← hsome]
          exact (h e he).left
        . simp at hsome

/--
The two operations that can leave an edge without an endpoint are used so that they do not: an edge
is only replaced by one between existing nodes, and a group is only deleted once it has no edges.
-/
def KeepsEndpoints (g : Graph) : Op → Prop
  | .replaceEdge src dst newFrom newTo =>
    (src, dst) ∈ g.edges → g.nodeExists newFrom = true ∧ g.nodeExists newTo = true
  | .deleteGroup group => g.isGroup group = true → ∀ e ∈ g.edges, e.1 ≠ group ∧ e.2 ≠ group
  | _ => True

theorem edgesExist_none : EdgesExist ⟨none⟩ := by
  constructor
  case edges => simp [Graph.edges]
  case successors => simp [Graph.successors]
  case predecessors => simp [Graph.predecessors]

theorem edgesExist_step_iff (g : Graph) (op : Op) (h : g.EdgesExist)
    : (g.step op).EdgesExist ↔ g.KeepsEndpoints op := by
  rcases g with ⟨_ | impl⟩
  . have : step ⟨none⟩ op = ⟨none⟩ := by cases op <;> rfl
    rw [this]
    cases op <;> simp [edgesExist_none, KeepsEndpoints, Graph.edges]
  . rw [edgesExist_iff] at h
    cases op with
    | addNode =>
      simp only [KeepsEndpoints, iff_true]
      exact (edgesExist_iff _).mpr (Impl.edgesValid_addNode impl h)
    | removeNode node =>
      simp only [KeepsEndpoints, iff_true, step, removeNode]
      split
      . exact (edgesExist_iff _).mpr h
      . next hvalid =>
        rw [edgesExist_iff]
        apply Impl.edgesValid_removeNode impl node h
        simpa using hvalid
    | addEdge source target =>
      simp only [KeepsEndpoints, iff_true, step, addEdge]
      split
      . exact (edgesExist_iff _).mpr h
      . next hvalid =>
        simp only [Bool.or_eq_true, Bool.not_eq_true', not_or, Bool.not_eq_false] at hvalid
        rw [edgesExist_iff]
        apply Impl.edgesValid_addEdge impl source target h hvalid.left hvalid.right
    | removeEdge source target =>
      simp only [KeepsEndpoints, iff_true, step, removeEdge]
      split
      . exact (edgesExist_iff _).mpr h
      . next hremove =>
        rw [edgesExist_iff]
        apply Impl.edgesValid_removeEdge impl _ source target h hremove
    | replaceEdge src dst newFrom newTo =>
      simp only [KeepsEndpoints, step, replaceEdge, Graph.edges, nodeExists]
      split
      . next hreplace =>
        have habsent : (src, dst) ∉ impl.edgeList := by
          rw [← Impl.replaceEdge.go_eq_none_iff src dst newFrom newTo]
          simpa [Impl.replaceEdge] using hreplace
        simp [edgesExist_iff, h, habsent]
      . next hreplace =>
        have hpresent : (src, dst) ∈ impl.edgeList := by
          by_contra habsent
          rw [← Impl.replaceEdge.go_eq_none_iff src dst newFrom newTo] at habsent
          simp [Impl.replaceEdge, habsent] at hreplace
        rw [edgesExist_iff]
        rw [Impl.edgesValid_replaceEdge_iff impl _ src dst newFrom newTo h hreplace]
        simp [hpresent]
    | createGroup nodes =>
      simp only [KeepsEndpoints, iff_true]
      exact (edgesExist_iff _).mpr (Impl.edgesValid_createGroup impl nodes h)
    | deleteGroup group =>
      simp only [KeepsEndpoints, step, deleteGroup, Graph.edges]
      split
      . next hdelete =>
        rw [deleteGroup_eq_none_iff] at hdelete
        simp [edgesExist_iff, h, hdelete]
      . next hdelete =>
        have hgroup : isGroup ⟨some impl⟩ group = true := by
          rw [← Bool.not_eq_false]
          intro hnone
          rw [← deleteGroup_eq_none_iff] at hnone
          simp [hdelete] at hnone
        rw [edgesExist_iff]
        rw [Impl.edgesValid_deleteGroup_iff impl _ group h hdelete]
        simp [hgroup]
    | setGroupExpanded group expanded =>
      simp only [KeepsEndpoints, iff_true, step, setGroupExpanded]
      split
      . exact (edgesExist_iff _).mpr h
      . rw [edgesExist_iff]
        apply Impl.edgesValid_of_valid_mono impl _ h
        . simp
        . intro n hn
          rw [Impl.valid_modifyNode _ _ _ _ (by simp)]
          apply hn
    | clear =>
      simp only [KeepsEndpoints, iff_true]
      apply (edgesExist_iff _).mpr
      intro e he
      simp [Impl.clear] at he

theorem edgesExist_empty : EdgesExist empty := by
  apply (edgesExist_iff _).mpr
  intro e he
  simp at he

theorem always_edgesExist_iff (ops : List Op)
    : Machine.Always step EdgesExist empty ops ↔ Machine.Guarded step KeepsEndpoints empty ops := by
  apply Machine.always_iff_guarded
  . apply edgesExist_step_iff
  . apply edgesExist_empty

theorem dangling_edge_reachable
    : (0, 7) ∈ (Machine.run step empty [.addNode, .addNode, .addEdge 0 1, .replaceEdge 0 1 0 7]).edges
        ∧
      ¬(∀ (ops : List Op), (Machine.run step empty ops).EdgesExist) := by
  constructor
  . decide
  . intro h
    have := (h [.addNode, .addNode, .addEdge 0 1, .replaceEdge 0 1 0 7]).edges (0, 7) (by decide)
    revert this
    decide

end Graph
end Idax
