import Idax.Error

/-!
This module contains the adjacency-list graph of `ida::graph`: `Graph.Impl` holds the node table and
the edge list, `Graph` is the handle whose operations check their arguments and then change it. Node
ids are C `int`s and any of them may be passed to any operation.
-/

namespace Idax

structure NodeData where
  alive : Bool := true
  isGroup : Bool := false
  collapsed : Bool := false
  parentGroup : Int := -1
  children : List Int := []
  deriving DecidableEq, Repr

structure Graph.Impl where
  nodes : List NodeData := []
  edgeList : List (Int × Int) := []
  deriving DecidableEq, Repr

inductive PathResult where
  | answer (found : Bool)
  | outOfBounds
  deriving DecidableEq, Repr

structure Graph where
  impl : Option Graph.Impl
  deriving DecidableEq, Repr

namespace Graph

namespace Impl

def node? (impl : Impl) (n : Int) : Option NodeData :=
  if 0 ≤ n then impl.nodes[n.toNat]? else none

def modifyNode (impl : Impl) (n : Int) (f : NodeData → NodeData) : Impl :=
  if 0 ≤ n then { impl with nodes := impl.nodes.modify n.toNat f } else impl

def addNode (impl : Impl) : Int × Impl :=
  (impl.nodes.length, { impl with nodes := impl.nodes ++ [{}] })

def valid (impl : Impl) (n : Int) : Bool :=
  (impl.node? n).any (·.alive)

def removeNode (impl : Impl) (n : Int) : Impl :=
  if !impl.valid n then
    impl
  else
    let impl := impl.modifyNode n fun data => { data with alive := false }
    { impl with edgeList := impl.edgeList.filter fun e => !(e.1 == n || e.2 == n) }

def totalCount (impl : Impl) : Int :=
  impl.nodes.length

def visibleCount (impl : Impl) : Int :=
  impl.nodes.countP (·.alive)

def addEdge (impl : Impl) (s t : Int) : Impl :=
  { impl with edgeList := impl.edgeList ++ [(s, t)] }

def removeEdge (impl : Impl) (s t : Int) : Option Impl :=
  if (s, t) ∈ impl.edgeList then
    some { impl with edgeList := impl.edgeList.erase (s, t) }
  else
    none

def replaceEdge (impl : Impl) (src dst nf nt : Int) : Option Impl :=
  go impl.edgeList |>.map fun edgeList => { impl with edgeList }
where
  go : List (Int × Int) → Option (List (Int × Int))
    | [] => none
    | e :: es =>
      if e.1 == src && e.2 == dst then
        -- The new endpoints are not looked at.
        some ((nf, nt) :: es)
      else
        go es |>.map (e :: ·)

def successorsOf (impl : Impl) (n : Int) : List Int :=
  impl.edgeList.filterMap fun e => if e.1 == n then some e.2 else none

def predecessorsOf (impl : Impl) (n : Int) : List Int :=
  impl.edgeList.filterMap fun e => if e.2 == n then some e.1 else none

namespace pathExists

def visitedAt (visited : List Bool) (n : Int) : Option Bool :=
  if 0 ≤ n then visited[n.toNat]? else none

def mark (visited : List Bool) (n : Int) : Option (List Bool) :=
  if 0 ≤ n ∧ n < visited.length then some (visited.set n.toNat true) else none

inductive Scan where
  | found
  | outOfBounds
  | done (visited : List Bool) (queue : List Int)

/--
The edges out of `cur`. Their targets are tested against the size of the node table, not for nodes
that still exist.
-/
def scanEdges (sz cur target : Int)
    : List (Int × Int) → (visited : List Bool) → (queue : List Int) → Scan
  | [], visited, queue => .done visited queue
  | e :: es, visited, queue =>
    if e.1 == cur then
      if e.2 == target then
        .found
      else if 0 ≤ e.2 ∧ e.2 < sz then
        match visitedAt visited e.2 with
        | none => .outOfBounds
        | some true => scanEdges sz cur target es visited queue
        | some false =>
          match mark visited e.2 with
          | none => .outOfBounds
          | some visited => scanEdges sz cur target es visited (queue ++ [e.2])
      else
        scanEdges sz cur target es visited queue
    else
      scanEdges sz cur target es visited queue

def search (sz target : Int) (edgeList : List (Int × Int))
    : (fuel : Nat) → (visited : List Bool) → (queue : List Int) → Option PathResult
  | _, _, [] => some (.answer false)
  | 0, _, _ :: _ => none
  | fuel + 1, visited, cur :: queue =>
    match scanEdges sz cur target edgeList visited queue with
    | .found => some (.answer true)
    | .outOfBounds => some .outOfBounds
    | .done visited queue => search sz target edgeList fuel visited queue

end pathExists

def pathExists (impl : Impl) (source target : Int) (fuel : Nat) : Option PathResult :=
  if source == target then
    some (.answer true)
  else
    let sz := impl.totalCount
    if !impl.valid source || !impl.valid target then
      some (.answer false)
    else
      match pathExists.mark (List.replicate sz.toNat false) source with
      | none => some .outOfBounds
      | some visited => pathExists.search sz target impl.edgeList fuel visited [source]

def createGroup (impl : Impl) (members : List Int) : Int × Impl :=
  let ⟨gid, impl⟩ := impl.addNode
  let impl := impl.modifyNode gid fun data => { data with isGroup := true, collapsed := false }
  (gid, members.foldl (join gid) impl)
where
  join (gid : Int) (impl : Impl) (m : Int) : Impl :=
    if impl.valid m then
      -- The group that `m` comes from, if any, keeps it in its list.
      let impl := impl.modifyNode m fun data => { data with parentGroup := gid }
      impl.modifyNode gid fun data => { data with children := data.children ++ [m] }
    else
      impl

def deleteGroup (impl : Impl) (group : Int) : Option Impl :=
  match impl.node? group with
  | none => none
  | some data =>
    if !impl.valid group || !data.isGroup then
      none
    else
      let impl := data.children.foldl leave impl
      -- The edges of the group node stay.
      some <| impl.modifyNode group fun data => { data with alive := false }
where
  leave (impl : Impl) (c : Int) : Impl :=
    if impl.valid c then
      impl.modifyNode c fun data => { data with parentGroup := -1 }
    else
      impl

def clear (impl : Impl) : Impl :=
  { impl with nodes := [], edgeList := [] }

end Impl

def empty : Graph := ⟨some {}⟩

def notInitialized : Error := .validation "Graph not initialized"

def addNode (g : Graph) : Int × Graph :=
  match g.impl with
  | none => (-1, g)
  | some impl =>
    let ⟨id, impl⟩ := impl.addNode
    (id, ⟨some impl⟩)

def removeNode (g : Graph) (node : Int) : Status × Graph :=
  match g.impl with
  | none => (.error notInitialized, g)
  | some impl =>
    if !impl.valid node then
      (.error (.notFound "Node does not exist"), g)
    else
      (ok, ⟨some (impl.removeNode node)⟩)

def nodeExists (g : Graph) (node : Int) : Bool :=
  match g.impl with
  | none => false
  | some impl => impl.valid node

def totalNodeCount (g : Graph) : Int :=
  match g.impl with
  | none => 0
  | some impl => impl.totalCount

def visibleNodeCount (g : Graph) : Int :=
  match g.impl with
  | none => 0
  | some impl => impl.visibleCount

def addEdge (g : Graph) (source target : Int) : Status × Graph :=
  match g.impl with
  | none => (.error notInitialized, g)
  | some impl =>
    if !impl.valid source || !impl.valid target then
      (.error (.validation "Invalid node"), g)
    else
      (ok, ⟨some (impl.addEdge source target)⟩)

def removeEdge (g : Graph) (source target : Int) : Status × Graph :=
  match g.impl with
  | none => (.error notInitialized, g)
  | some impl =>
    match impl.removeEdge source target with
    | none => (.error (.notFound "Edge not found"), g)
    | some impl => (ok, ⟨some impl⟩)

def replaceEdge (g : Graph) (src dst newFrom newTo : Int) : Status × Graph :=
  match g.impl with
  | none => (.error notInitialized, g)
  | some impl =>
    match impl.replaceEdge src dst newFrom newTo with
    | none => (.error (.notFound "Edge not found"), g)
    | some impl => (ok, ⟨some impl⟩)

def successors (g : Graph) (node : Int) : Result (List Int) :=
  match g.impl with
  | none => .error notInitialized
  | some impl =>
    if !impl.valid node then
      .error (.notFound "Node does not exist")
    else
      .ok (impl.successorsOf node)

def predecessors (g : Graph) (node : Int) : Result (List Int) :=
  match g.impl with
  | none => .error notInitialized
  | some impl =>
    if !impl.valid node then
      .error (.notFound "Node does not exist")
    else
      .ok (impl.predecessorsOf node)

def visibleNodes (g : Graph) : List Int :=
  match g.impl with
  | none => []
  | some impl => ((List.range impl.totalCount.toNat).map Int.ofNat).filter impl.valid

def edges (g : Graph) : List (Int × Int) :=
  match g.impl with
  | none => []
  | some impl => impl.edgeList

def pathExists (g : Graph) (source target : Int) (fuel : Nat) : Option PathResult :=
  match g.impl with
  | none => some (.answer false)
  | some impl => impl.pathExists source target fuel

def createGroup (g : Graph) (nodes : List Int) : Result Int × Graph :=
  match g.impl with
  | none => (.error notInitialized, g)
  | some impl =>
    let ⟨gid, impl⟩ := impl.createGroup nodes
    (.ok gid, ⟨some impl⟩)

def deleteGroup (g : Graph) (group : Int) : Status × Graph :=
  match g.impl with
  | none => (.error notInitialized, g)
  | some impl =>
    match impl.deleteGroup group with
    | none => (.error (.sdk "delete_group failed"), g)
    | some impl => (ok, ⟨some impl⟩)

def isGroup (g : Graph) (node : Int) : Bool :=
  match g.impl with
  | none => false
  | some impl =>
    match impl.node? node with
    | some data => impl.valid node && data.isGroup
    | none => false

def setGroupExpanded (g : Graph) (group : Int) (expanded : Bool) : Status × Graph :=
  match g.impl with
  | none => (.error notInitialized, g)
  | some impl =>
    if !g.isGroup group then
      (.error (.validation "Node is not a group"), g)
    else
      (ok, ⟨some (impl.modifyNode group fun data => { data with collapsed := !expanded })⟩)

def isCollapsed (g : Graph) (group : Int) : Bool :=
  match g.impl with
  | none => false
  | some impl =>
    match impl.node? group with
    | some data => impl.valid group && data.collapsed
    | none => false

def groupMembers (g : Graph) (group : Int) : Result (List Int) :=
  match g.impl with
  | none => .error notInitialized
  | some impl =>
    match impl.node? group with
    | none => .error (.validation "Node is not a group")
    | some data =>
      if !impl.valid group || !data.isGroup then
        .error (.validation "Node is not a group")
      else
        .ok data.children

def clear (g : Graph) : Graph :=
  ⟨g.impl.map Impl.clear⟩

inductive Op where
  | addNode
  | removeNode (node : Int)
  | addEdge (source target : Int)
  | removeEdge (source target : Int)
  | replaceEdge (src dst newFrom newTo : Int)
  | createGroup (nodes : List Int)
  | deleteGroup (group : Int)
  | setGroupExpanded (group : Int) (expanded : Bool)
  | clear
  deriving DecidableEq, Repr

def step (g : Graph) : Op → Graph
  | .addNode => g.addNode.2
  | .removeNode node => (g.removeNode node).2
  | .addEdge source target => (g.addEdge source target).2
  | .removeEdge source target => (g.removeEdge source target).2
  | .replaceEdge src dst newFrom newTo => (g.replaceEdge src dst newFrom newTo).2
  | .createGroup nodes => (g.createGroup nodes).2
  | .deleteGroup group => (g.deleteGroup group).2
  | .setGroupExpanded group expanded => (g.setGroupExpanded group expanded).2
  | .clear => g.clear

end Graph
end Idax
