import Mathlib.Data.List.Basic
import Idax.Graph.Impl

/-!
What each operation on the node table does to a single node, and from that which nodes are alive
after it.
-/

namespace Idax
namespace Graph
namespace Impl

theorem node?_lt_length (impl : Impl) (n : Int) (h : impl.node? n = some data)
    : 0 ≤ n ∧ n < impl.nodes.length := by
  unfold node? at h
  split at h
  . have := (List.getElem?_eq_some_iff.mp h).choose
    omega
  . simp at h

theorem node?_addNode (impl : Impl) (n : Int)
    : impl.addNode.2.node? n = if n = impl.nodes.length then some {} else impl.node? n := by
  unfold addNode node?
  dsimp
  split
  . split
    . next heq =>
      subst heq
      simp
    . next hne =>
      rw [List.getElem?_append]
      split
      . rfl
      . rw [List.getElem?_eq_none (by simp; omega)]
        rw [List.getElem?_eq_none (by omega)]
  . split
    . omega
    . rfl

theorem node?_modifyNode (impl : Impl) (m n : Int) (f : NodeData → NodeData)
    : (impl.modifyNode m f).node? n = if n = m then (impl.node? n).map f else impl.node? n := by
  unfold modifyNode node?
  by_cases hm : 0 ≤ m
  . by_cases hn : 0 ≤ n
    . simp only [hm, hn, ↓reduceIte]
      rw [List.getElem?_modify]
      split
      . have : n = m := by omega
        simp [this]
      . have : n ≠ m := by omega
        simp [this]
    . simp [hn]
  . by_cases hn : 0 ≤ n
    . have : n ≠ m := by omega
      simp [hm, this]
    . simp [hn]

theorem valid_iff (impl : Impl) (n : Int)
    : impl.valid n = true ↔ ∃ data, impl.node? n = some data ∧ data.alive = true := by
  unfold valid
  rw [Option.any_eq_true]

theorem valid_lt_length (impl : Impl) (n : Int) (h : impl.valid n = true)
    : 0 ≤ n ∧ n < impl.nodes.length := by
  rcases (valid_iff impl n).mp h with ⟨data, hdata, _⟩
  apply node?_lt_length impl n hdata

theorem valid_addNode (impl : Impl) (n : Int)
    : impl.addNode.2.valid n = (n == impl.nodes.length || impl.valid n) := by
  unfold valid
  rw [node?_addNode]
  by_cases heq : n = impl.nodes.length
  . simp [heq]
  . simp [heq]

theorem valid_modifyNode (impl : Impl) (m n : Int) (f : NodeData → NodeData)
    (hf : ∀ (data : NodeData), (f data).alive = data.alive)
    : (impl.modifyNode m f).valid n = impl.valid n := by
  unfold valid
  rw [node?_modifyNode]
  split
  . rw [Option.any_map]
    simp [hf]
  . rfl

theorem valid_modifyNode_dead (impl : Impl) (m n : Int)
    : (impl.modifyNode m fun data => { data with alive := false }).valid n
        =
      (n != m && impl.valid n) := by
  unfold valid
  rw [node?_modifyNode]
  by_cases heq : n = m
  . simp [heq, Option.any_map]
  . simp [heq]

@[simp]
theorem modifyNode_edgeList (impl : Impl) (m : Int) (f : NodeData → NodeData)
    : (impl.modifyNode m f).edgeList = impl.edgeList := by
  unfold modifyNode
  split <;> rfl

theorem valid_removeNode (impl : Impl) (m n : Int)
    : (impl.removeNode m).valid n = (n != m && impl.valid n) := by
  unfold removeNode
  split
  . next hdead =>
    cases heq : n != m with
    | true => simp
    | false => simp_all
  . apply valid_modifyNode_dead impl m n

theorem createGroup.valid_join (impl : Impl) (gid m n : Int)
    : (join gid impl m).valid n = impl.valid n := by
  unfold join
  split
  . rw [valid_modifyNode _ _ _ _ (by simp)]
    rw [valid_modifyNode _ _ _ _ (by simp)]
  . rfl

theorem createGroup.valid_foldl_join (impl : Impl) (gid n : Int) (members : List Int)
    : (members.foldl (join gid) impl).valid n = impl.valid n := by
  induction members generalizing impl with
  | nil => rfl
  | cons m ms ih =>
    rw [List.foldl_cons]
    rw [ih]
    rw [valid_join]

theorem valid_createGroup (impl : Impl) (members : List Int) (n : Int)
    : (impl.createGroup members).2.valid n = (n == impl.nodes.length || impl.valid n) := by
  unfold createGroup
  dsimp
  rw [createGroup.valid_foldl_join]
  rw [valid_modifyNode _ _ _ _ (by simp)]
  rw [valid_addNode]

theorem deleteGroup.valid_foldl_leave (impl : Impl) (children : List Int) (n : Int)
    : (children.foldl leave impl).valid n = impl.valid n := by
  induction children generalizing impl with
  | nil => rfl
  | cons c cs ih =>
    rw [List.foldl_cons]
    rw [ih]
    unfold leave
    split
    . rw [valid_modifyNode _ _ _ _ (by simp)]
    . rfl

theorem deleteGroup_eq_some_iff (impl impl' : Impl) (group : Int)
    : impl.deleteGroup group = some impl'
        ↔
      ∃ data,
        impl.node? group = some data ∧ data.alive = true ∧ data.isGroup = true
          ∧ impl' = (data.children.foldl deleteGroup.leave impl).modifyNode group
              fun data => { data with alive := false } := by
  unfold deleteGroup
  cases hdata : impl.node? group with
  | none => simp
  | some data =>
    have hvalid : impl.valid group = data.alive := by simp [valid, hdata]
    dsimp
    rw [hvalid]
    constructor
    . intro h
      split at h
      . simp at h
      . next hcond =>
        simp only [Bool.or_eq_true, Bool.not_eq_true', not_or, Bool.not_eq_false] at hcond
        injection h with h
        exact ⟨data, rfl, hcond.left, hcond.right, h.symm⟩
    . intro ⟨_, hsome, halive, hgroup, himpl⟩
      injection hsome with hsome
      subst hsome
      rw [himpl]
      simp [halive, hgroup]

theorem valid_deleteGroup (impl impl' : Impl) (group n : Int)
    (h : impl.deleteGroup group = some impl')
    : impl'.valid n = (n != group && impl.valid n) := by
  rcases (deleteGroup_eq_some_iff impl impl' group).mp h with ⟨data, _, _, _, rfl⟩
  rw [valid_modifyNode_dead]
  rw [deleteGroup.valid_foldl_leave]

end Impl

theorem isGroup_iff (impl : Impl) (n : Int)
    : isGroup ⟨some impl⟩ n = true
        ↔
      ∃ data, impl.node? n = some data ∧ data.alive = true ∧ data.isGroup = true := by
  unfold isGroup
  cases hdata : impl.node? n with
  | none => simp [hdata]
  | some data => simp [hdata, Impl.valid]

theorem deleteGroup_eq_none_iff (impl : Impl) (group : Int)
    : impl.deleteGroup group = none ↔ isGroup ⟨some impl⟩ group = false := by
  rw [← Bool.not_eq_true]
  rw [isGroup_iff]
  cases hdelete : impl.deleteGroup group with
  | none =>
    simp only [true_iff]
    intro ⟨data, hdata, halive, hgroup⟩
    have hsome := (Impl.deleteGroup_eq_some_iff impl _ group).mpr ⟨data, hdata, halive, hgroup, rfl⟩
    rw [hdelete] at hsome
    simp at hsome
  | some impl' =>
    rcases (Impl.deleteGroup_eq_some_iff impl impl' group).mp hdelete with
      ⟨data, hdata, halive, hgroup, _⟩
    simp only [reduceCtorEq, false_iff, not_not]
    exact ⟨data, hdata, halive, hgroup⟩

end Graph
end Idax
