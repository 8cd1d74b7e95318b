import Idax.Graph.Lemmas.Basic

/-!
The group structure of a node table is observed through `groupAt`, `childrenOf` and `parentOf`. Each
operation is described once by what it does to these observations.
-/

namespace Idax
namespace Graph
namespace Impl

def groupAt (impl : Impl) (n : Int) : Bool :=
  (impl.node? n).any fun data => data.alive && data.isGroup

def childrenOf (impl : Impl) (n : Int) : List Int :=
  (impl.node? n).elim [] (·.children)

def parentOf (impl : Impl) (n : Int) : Int :=
  (impl.node? n).elim (-1) (·.parentGroup)

theorem valid_of_groupAt (impl : Impl) (n : Int) (h : impl.groupAt n = true)
    : impl.valid n = true := by
  unfold groupAt at h
  unfold valid
  cases hdata : impl.node? n with
  | none => simp [hdata] at h
  | some data =>
    simp only [hdata, Option.any_some, Bool.and_eq_true] at h
    simp [h.left]

theorem node?_length (impl : Impl) : impl.node? impl.nodes.length = none := by
  unfold node?
  simp

theorem ne_length_of_valid (impl : Impl) (n : Int) (h : impl.valid n = true)
    : n ≠ impl.nodes.length := by
  have := valid_lt_length impl n h
  omega

theorem groupAt_addNode (impl : Impl) (n : Int) : impl.addNode.2.groupAt n = impl.groupAt n := by
  unfold groupAt
  rw [node?_addNode]
  split
  . next heq => simp [heq, node?_length]
  . rfl

theorem childrenOf_addNode (impl : Impl) (n : Int)
    : impl.addNode.2.childrenOf n = impl.childrenOf n := by
  unfold childrenOf
  rw [node?_addNode]
  split
  . next heq => simp [heq, node?_length]
  . rfl

theorem parentOf_addNode (impl : Impl) (n : Int) : impl.addNode.2.parentOf n = impl.parentOf n := by
  unfold parentOf
  rw [node?_addNode]
  split
  . next heq => simp [heq, node?_length]
  . rfl

theorem groupAt_modifyNode_dead (impl : Impl) (m n : Int)
    : (impl.modifyNode m fun data => { data with alive := false }).groupAt n
        =
      (n != m && impl.groupAt n) := by
  unfold groupAt
  rw [node?_modifyNode]
  by_cases heq : n = m
  . simp [heq, Option.any_map]
  . simp [heq]

theorem childrenOf_modifyNode (impl : Impl) (m n : Int) (f : NodeData → NodeData)
    (hf : ∀ (data : NodeData), (f data).children = data.children)
    : (impl.modifyNode m f).childrenOf n = impl.childrenOf n := by
  unfold childrenOf
  rw [node?_modifyNode]
  split
  . cases impl.node? n <;> simp [hf]
  . rfl

theorem parentOf_modifyNode (impl : Impl) (m n : Int) (f : NodeData → NodeData)
    (hf : ∀ (data : NodeData), (f data).parentGroup = data.parentGroup)
    : (impl.modifyNode m f).parentOf n = impl.parentOf n := by
  unfold parentOf
  rw [node?_modifyNode]
  split
  . cases impl.node? n <;> simp [hf]
  . rfl

theorem groupAt_modifyNode (impl : Impl) (m n : Int) (f : NodeData → NodeData)
    (hf : ∀ (data : NodeData), (f data).alive = data.alive ∧ (f data).isGroup = data.isGroup)
    : (impl.modifyNode m f).groupAt n = impl.groupAt n := by
  unfold groupAt
  rw [node?_modifyNode]
  split
  . rw [Option.any_map]
    simp [hf]
  . rfl

theorem node?_removeNode (impl : Impl) (m n : Int) (hm : impl.valid m = true)
    : (impl.removeNode m).node? n
        =
      (impl.modifyNode m fun data => { data with alive := false }).node? n := by
  unfold removeNode
  simp [hm, node?]

theorem groupAt_removeNode (impl : Impl) (m n : Int) (hm : impl.valid m = true)
    : (impl.removeNode m).groupAt n = (n != m && impl.groupAt n) := by
  rw [← groupAt_modifyNode_dead]
  unfold groupAt
  rw [node?_removeNode impl m n hm]

theorem childrenOf_removeNode (impl : Impl) (m n : Int) (hm : impl.valid m = true)
    : (impl.removeNode m).childrenOf n = impl.childrenOf n := by
  rw [← childrenOf_modifyNode impl m n (fun data => { data with alive := false }) (by simp)]
  unfold childrenOf
  rw [node?_removeNode impl m n hm]

theorem parentOf_removeNode (impl : Impl) (m n : Int) (hm : impl.valid m = true)
    : (impl.removeNode m).parentOf n = impl.parentOf n := by
  rw [← parentOf_modifyNode impl m n (fun data => { data with alive := false }) (by simp)]
  unfold parentOf
  rw [node?_removeNode impl m n hm]

namespace createGroup

def joined (impl : Impl) (members : List Int) : List Int :=
  members.filter impl.addNode.2.valid

def takeIn (gid : Int) (taken : List Int) (n : Int) (data : NodeData) : NodeData :=
  { data with
    parentGroup := if n ∈ taken then gid else data.parentGroup
    children := if n = gid then data.children ++ taken else data.children }

theorem takeIn_nil (gid n : Int) : takeIn gid [] n = id := by
  funext data
  simp [takeIn]

theorem takeIn_append (gid n : Int) (taken1 taken2 : List Int)
    : takeIn gid (taken1 ++ taken2) n = takeIn gid taken2 n ∘ takeIn gid taken1 n := by
  funext data
  unfold takeIn
  by_cases hn : n = gid <;> by_cases h1 : n ∈ taken1 <;> by_cases h2 : n ∈ taken2 <;> simp_all

theorem node?_join (impl : Impl) (gid m n : Int)
    : (join gid impl m).node? n = (impl.node? n).map (takeIn gid ([m].filter impl.valid) n) := by
  unfold join
  split
  . next hvalid =>
    rw [node?_modifyNode, node?_modifyNode]
    unfold takeIn
    by_cases hgid : n = gid <;> by_cases hm : n = m <;> cases impl.node? n <;> simp_all
  . next hdead =>
    simp only [Bool.not_eq_true] at hdead
    rw [List.filter_cons_of_neg (by simp [hdead])]
    simp [takeIn_nil]

theorem node?_foldl_join (impl : Impl) (gid n : Int) (members : List Int)
    : (members.foldl (join gid) impl).node? n
        =
      (impl.node? n).map (takeIn gid (members.filter impl.valid) n) := by
  induction members generalizing impl with
  | nil => simp [takeIn_nil]
  | cons m ms ih =>
    have hvalid : (join gid impl m).valid = impl.valid := by
      funext k
      rw [valid_join]
    have hfilter : (m :: ms).filter impl.valid = [m].filter impl.valid ++ ms.filter impl.valid := by
      rw [← List.filter_append]
      rfl
    rw [List.foldl_cons]
    rw [ih, node?_join]
    rw [hvalid, hfilter]
    rw [takeIn_append]
    rw [Option.map_map]

end createGroup

theorem node?_createGroup (impl : Impl) (members : List Int) (n : Int)
    : (impl.createGroup members).2.node? n
        =
      if n = impl.nodes.length then
        some <| createGroup.takeIn n (createGroup.joined impl members) n { isGroup := true }
      else
        (impl.node? n).map (createGroup.takeIn impl.nodes.length (createGroup.joined impl members) n) := by
  have hvalid : (impl.addNode.2.modifyNode impl.nodes.length
      fun data => { data with isGroup := true, collapsed := false }).valid = impl.addNode.2.valid := by
    funext k
    rw [valid_modifyNode _ _ _ _ (by simp)]
  unfold createGroup createGroup.joined
  dsimp
  rw [createGroup.node?_foldl_join]
  rw [show impl.addNode.1 = impl.nodes.length from rfl]
  rw [hvalid]
  rw [node?_modifyNode, node?_addNode]
  split
  . next heq => simp [heq]
  . rfl

theorem groupAt_createGroup (impl : Impl) (members : List Int) (n : Int)
    : (impl.createGroup members).2.groupAt n = (n == impl.nodes.length || impl.groupAt n) := by
  unfold groupAt
  rw [node?_createGroup]
  by_cases heq : n = impl.nodes.length
  . simp [heq, createGroup.takeIn]
  . simp [heq, createGroup.takeIn, Option.any_map]

theorem childrenOf_createGroup (impl : Impl) (members : List Int) (n : Int)
    : (impl.createGroup members).2.childrenOf n
        =
      if n = impl.nodes.length then createGroup.joined impl members else impl.childrenOf n := by
  unfold childrenOf
  rw [node?_createGroup]
  split
  . next heq => simp [createGroup.takeIn]
  . next hne => cases impl.node? n <;> simp [createGroup.takeIn, hne]

theorem createGroup.mem_joined_iff (impl : Impl) (members : List Int) (n : Int)
    : n ∈ joined impl members ↔ n ∈ members ∧ (n = impl.nodes.length ∨ impl.valid n = true) := by
  unfold joined
  rw [List.mem_filter]
  rw [valid_addNode]
  simp

theorem parentOf_createGroup (impl : Impl) (members : List Int) (n : Int)
    : (impl.createGroup members).2.parentOf n
        =
      if n ∈ createGroup.joined impl members then (impl.nodes.length : Int) else impl.parentOf n := by
  unfold parentOf
  rw [node?_createGroup]
  split
  . next heq => simp [createGroup.takeIn, heq, node?_length]
  . next hne =>
    cases hdata : impl.node? n with
    | none =>
      have : n ∉ createGroup.joined impl members := by
        rw [createGroup.mem_joined_iff]
        simp [hne, valid, hdata]
      simp [this]
    | some data => simp [createGroup.takeIn]

theorem deleteGroup.node?_foldl_leave (impl : Impl) (children : List Int) (n : Int)
    : (children.foldl leave impl).node? n
        =
      (impl.node? n).map fun data =>
        if n ∈ children ∧ data.alive = true then { data with parentGroup := -1 } else data := by
  induction children generalizing impl with
  | nil => simp
  | cons c cs ih =>
    have hleave : (leave impl c).node? n = (impl.node? n).map fun data =>
        if n = c ∧ data.alive = true then { data with parentGroup := -1 } else data := by
      unfold leave
      split
      . next hvalid =>
        rw [node?_modifyNode]
        by_cases hc : n = c
        . rcases (valid_iff impl c).mp hvalid with ⟨data, hdata, halive⟩
          simp [hc, hdata, halive]
        . simp [hc]
      . next hdead =>
        by_cases hc : n = c
        . cases hdata : impl.node? n with
          | none => simp
          | some data =>
            have : data.alive = false := by simpa [valid, ← hc, hdata] using hdead
            simp [this]
        . simp [hc]
    rw [List.foldl_cons]
    rw [ih, hleave]
    rw [Option.map_map]
    congr 1
    funext data
    by_cases hc : n = c <;> by_cases hcs : n ∈ cs <;> by_cases halive : data.alive = true
      <;> simp [hc, hcs, halive]

theorem deleteGroup_eq_some (impl impl' : Impl) (group : Int)
    (h : impl.deleteGroup group = some impl')
    : impl.groupAt group = true
        ∧ impl' = ((impl.childrenOf group).foldl deleteGroup.leave impl).modifyNode group
            fun data => { data with alive := false } := by
  rcases (deleteGroup_eq_some_iff impl impl' group).mp h with ⟨data, hdata, halive, hgroup, himpl⟩
  constructor
  . simp [groupAt, hdata, halive, hgroup]
  . simp [childrenOf, hdata, himpl]

theorem groupAt_deleteGroup (impl impl' : Impl) (group n : Int)
    (h : impl.deleteGroup group = some impl')
    : impl'.groupAt n = (n != group && impl.groupAt n) := by
  rcases deleteGroup_eq_some impl impl' group h with ⟨_, rfl⟩
  rw [groupAt_modifyNode_dead]
  unfold groupAt
  rw [deleteGroup.node?_foldl_leave]
  cases impl.node? n with
  | none => simp
  | some data => by_cases hc : n ∈ impl.childrenOf group ∧ data.alive = true <;> simp [hc]

theorem childrenOf_deleteGroup (impl impl' : Impl) (group n : Int)
    (h : impl.deleteGroup group = some impl')
    : impl'.childrenOf n = impl.childrenOf n := by
  rcases deleteGroup_eq_some impl impl' group h with ⟨_, rfl⟩
  rw [childrenOf_modifyNode _ _ _ _ (by simp)]
  unfold childrenOf
  rw [deleteGroup.node?_foldl_leave]
  cases impl.node? n with
  | none => simp
  | some data =>
    by_cases hc : n ∈ (impl.node? group).elim [] (·.children) ∧ data.alive = true <;> simp [hc]

theorem parentOf_deleteGroup (impl impl' : Impl) (group n : Int)
    (h : impl.deleteGroup group = some impl')
    : impl'.parentOf n
        =
      if n ∈ impl.childrenOf group ∧ impl.valid n = true then -1 else impl.parentOf n := by
  rcases deleteGroup_eq_some impl impl' group h with ⟨_, rfl⟩
  rw [parentOf_modifyNode _ _ _ _ (by simp)]
  unfold parentOf valid
  rw [deleteGroup.node?_foldl_leave]
  cases impl.node? n with
  | none => simp
  | some data => by_cases hc : n ∈ impl.childrenOf group ∧ data.alive = true <;> simp [hc]

end Impl

theorem isGroup_eq (impl : Impl) (n : Int) : isGroup ⟨some impl⟩ n = impl.groupAt n := by
  unfold isGroup Impl.groupAt Impl.valid
  cases hdata : impl.node? n with
  | none => simp [hdata]
  | some data => simp [hdata]

theorem groupMembers_eq_ok_iff (impl : Impl) (n : Int) (ms : List Int)
    : groupMembers ⟨some impl⟩ n = .ok ms ↔ impl.groupAt n = true ∧ ms = impl.childrenOf n := by
  unfold groupMembers Impl.groupAt Impl.childrenOf Impl.valid
  cases hdata : impl.node? n with
  | none => simp [hdata]
  | some data =>
    cases halive : data.alive <;> cases hgroup : data.isGroup
      <;> simp [hdata, halive, hgroup, eq_comm]

end Graph
end Idax
