import Idax.Error
import Idax.Types.Tinfo

/-!
This module contains the renderer of type graphs: the walk that collects the types and the edges
between them, and what the rendered graph contains of these.
-/

namespace Idax
namespace Types

inductive TypeGraphMode where
  | simple
  | table
  deriving DecidableEq, Repr

structure TypeGraphOptions where
  mode : TypeGraphMode := .simple
  maxDepth : Int := -1
  includeEnums : Bool := true
  includeTypedefs : Bool := true
  deriving Repr

structure FieldEdge where
  fieldIndex : Nat
  targetName : String
  deriving DecidableEq, Repr

structure GraphNode where
  name : String
  edges : List FieldEdge
  deriving DecidableEq, Repr

structure GraphState where
  nodes : List GraphNode := []
  seen : List String := []
  deriving DecidableEq, Repr

structure DotEdge where
  source : String
  port : Option Nat := none
  target : String
  deriving DecidableEq, Repr

structure Dot where
  nodes : List String
  edges : List DotEdge
  deriving DecidableEq, Repr

structure TypeGraphRenderer where
  til : Til
  /-- Whether the type of a name is a `typedef`, which it may be of a struct or an enum. -/
  isTypedef : String → Bool
  options : TypeGraphOptions

namespace TypeGraphRenderer

def resolveNamed : (hops : Nat) → Tinfo → Tinfo
  | 0, _ => .absent
  | _ + 1, .absent => .absent
  | hops + 1, .ptr pointed => resolveNamed hops pointed
  | hops + 1, .array element => resolveNamed hops element
  | _ + 1, ti => if ti.typeName.isEmpty then .absent else ti

def maxHops : Nat := 16

variable (renderer : TypeGraphRenderer)

def excludes (ti : Tinfo) : Bool :=
  renderer.til.isEnum ti && !renderer.options.includeEnums
    || renderer.isTypedef ti.typeName && !renderer.options.includeTypedefs

def fieldEdge (name : String) (fieldIndex : Nat) (member : Udm) : Option FieldEdge :=
  let target := resolveNamed maxHops member.type
  let targetName := target.typeName
  if targetName.isEmpty ∨ targetName = name then
    none
  else if renderer.excludes target then
    none
  else
    some { fieldIndex, targetName }

def fieldEdges (name : String) (ti : Tinfo) : List FieldEdge :=
  match renderer.til.udtDetails? ti with
  | none => []
  | some udt => udt.members.zipIdx.filterMap fun ⟨member, i⟩ => renderer.fieldEdge name i member

def walk : (fuel : Nat) → Tinfo → (depth : Int) → GraphState → Option GraphState
  | 0, _, _, _ => none
  | fuel + 1, ti, depth, s =>
    if ti matches .absent then
      some s
    else if 0 ≤ renderer.options.maxDepth ∧ renderer.options.maxDepth < depth then
      some s
    else
      let name := ti.typeName
      if name.isEmpty ∨ name ∈ s.seen then
        some s
      else
        let s := { s with seen := name :: s.seen }
        if renderer.excludes ti then
          some s
        else
          -- The edges are recorded before it is known which of their targets are looked at.
          let edges := renderer.fieldEdges name ti
          let s := { s with nodes := s.nodes ++ [{ name, edges }] }
          edges.foldlM (fun s edge =>
            if edge.targetName ∈ s.seen then
              some s
            else
              match renderer.til.tinfoFromName edge.targetName with
              | none => some s
              | some target => walk fuel target (depth + 1) s) s

def emitSimple (nodes : List GraphNode) : Dot :=
  let edges := nodes.flatMap fun node => node.edges.map fun edge =>
    { source := node.name, target := edge.targetName : DotEdge }
  { nodes := nodes.map (·.name), edges := edges.eraseDups }

def emitTable (nodes : List GraphNode) : Dot :=
  let edges := nodes.flatMap fun node => node.edges.map fun edge =>
    { source := node.name, port := some edge.fieldIndex, target := edge.targetName : DotEdge }
  { nodes := nodes.map (·.name), edges }

def emit (nodes : List GraphNode) : Dot :=
  match renderer.options.mode with
  | .table => emitTable nodes
  | .simple => emitSimple nodes

def render (fuel : Nat) (rootName : String) : Option Dot :=
  match renderer.til.tinfoFromName rootName with
  | none => some { nodes := [], edges := [] }
  | some root => do
    let s ← renderer.walk fuel root 0 {}
    if s.nodes.isEmpty then
      some { nodes := [], edges := [] }
    else
      some (renderer.emit s.nodes)

end TypeGraphRenderer

def renderTypeGraph (til : Til) (isTypedef : String → Bool) (fuel : Nat) (rootName : String)
    (options : TypeGraphOptions) : Option (Result Dot) := do
  let dot ← TypeGraphRenderer.render { til, isTypedef, options } fuel rootName
  if dot.nodes.isEmpty then
    some (.error (.notFound "Type graph root not found" rootName))
  else
    some (.ok dot)

end Types
end Idax
