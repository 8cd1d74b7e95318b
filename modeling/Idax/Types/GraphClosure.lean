import Mathlib.Data.List.Nodup
import Idax.Types.Lemmas.Graph

/-!
This module contains the question when a type graph has exactly the types within its depth, and no
edge that leads out of it. At the maximal depth the edges of a type are recorded but not followed.
-/

namespace Idax
namespace Types
namespace TypeGraphRenderer

section Statement

variable (renderer : TypeGraphRenderer) (root : String)

def Admissible (name : String) : Prop :=
  renderer.Defined name ∧ renderer.excludes (.named name) = false

instance (name : String) : Decidable (renderer.Admissible name) :=
  inferInstanceAs (Decidable (_ ∧ _))

inductive Chain : Nat → String → Prop where
  | root (h : renderer.Admissible root) : Chain 0 root
  | step {n owner target} (h : Chain n owner) (hstep : renderer.FieldStep owner target)
    (hdefined : renderer.Defined target) : Chain (n + 1) target

def Within (name : String) : Prop :=
  ∃ n : Nat, (0 ≤ renderer.options.maxDepth → n ≤ renderer.options.maxDepth)
    ∧ renderer.Chain root n name

structure ClosedAndComplete (dot : Dot) : Prop where
  complete : ∀ name, name ∈ dot.nodes ↔ renderer.Within root name
  once : dot.nodes.Nodup
  closed : ∀ edge ∈ dot.edges, edge.source ∈ dot.nodes ∧ edge.target ∈ dot.nodes

def roots : List String :=
  if renderer.Admissible root then [root] else []

def FirstReached (n : Nat) (name : String) : Prop :=
  ∃ left, n + left = renderer.options.maxDepth.toNat
    ∧ (name, left) ∈ LimitedSearch.entries renderer.succ renderer.options.maxDepth.toNat
        (renderer.roots root)

def FieldsWithin : Prop :=
  ∀ n owner target, renderer.Chain root n owner → renderer.FieldStep owner target
    → renderer.Defined target ∧ renderer.Within root target

/--
A type that is first reached at the maximal depth, but is nearer to the root, has only fields of types
that are come to from a type first reached above it, or of the type of the root.
-/
def DetoursHarmless : Prop :=
  0 ≤ renderer.options.maxDepth
    → ∀ name n, renderer.FirstReached root renderer.options.maxDepth.toNat name
    → n < renderer.options.maxDepth.toNat → renderer.Chain root n name
    → ∀ target, renderer.FieldStep name target → renderer.Defined target
    → target = root ∨ ∃ owner k, k < renderer.options.maxDepth.toNat
      ∧ renderer.FirstReached root k owner ∧ renderer.FieldStep owner target

end Statement

section Output

variable {renderer : TypeGraphRenderer}

theorem emit_nodes (nodes : List GraphNode) : (renderer.emit nodes).nodes = nodes.map (·.name) := by
  unfold emit
  split <;> rfl

theorem emit_nil : renderer.emit [] = { nodes := [], edges := [] } := by
  unfold emit
  split <;> rfl

theorem mem_emitTable_edges {nodes : List GraphNode} {source target : String}
    : (∃ edge ∈ (emitTable nodes).edges, edge.source = source ∧ edge.target = target)
        ↔ ∃ node ∈ nodes, node.name = source ∧ ∃ edge ∈ node.edges, edge.targetName = target := by
  simp only [emitTable, List.mem_flatMap, List.mem_map]
  constructor
  . rintro ⟨_, ⟨node, hnode, edge, hedge, heq⟩, hsource, htarget⟩
    subst heq
    exact ⟨node, hnode, hsource, edge, hedge, htarget⟩
  . rintro ⟨node, hnode, hsource, edge, hedge, htarget⟩
    exact ⟨_, ⟨node, hnode, edge, hedge, rfl⟩, hsource, htarget⟩

theorem mem_emitSimple_edges {nodes : List GraphNode} {source target : String}
    : (∃ edge ∈ (emitSimple nodes).edges, edge.source = source ∧ edge.target = target)
        ↔ ∃ node ∈ nodes, node.name = source ∧ ∃ edge ∈ node.edges, edge.targetName = target := by
  simp only [emitSimple, List.mem_eraseDups, List.mem_flatMap, List.mem_map]
  constructor
  . rintro ⟨_, ⟨node, hnode, edge, hedge, heq⟩, hsource, htarget⟩
    subst heq
    exact ⟨node, hnode, hsource, edge, hedge, htarget⟩
  . rintro ⟨node, hnode, hsource, edge, hedge, htarget⟩
    exact ⟨_, ⟨node, hnode, edge, hedge, rfl⟩, hsource, htarget⟩

theorem mem_emit_edges {nodes : List GraphNode} {source target : String}
    : (∃ edge ∈ (renderer.emit nodes).edges, edge.source = source ∧ edge.target = target)
        ↔ ∃ node ∈ nodes, node.name = source ∧ ∃ edge ∈ node.edges, edge.targetName = target := by
  unfold emit
  split
  . apply mem_emitTable_edges
  . apply mem_emitSimple_edges

end Output

section Search

open LimitedSearch

variable {renderer : TypeGraphRenderer} {root : String}

def limit (renderer : TypeGraphRenderer) : Nat :=
  if 0 ≤ renderer.options.maxDepth then renderer.options.maxDepth.toNat else renderer.typeCount

def found (renderer : TypeGraphRenderer) (root : String) : List (String × Nat) :=
  entries renderer.succ renderer.limit (renderer.roots root)

def dotOf (renderer : TypeGraphRenderer) (root : String) : Dot :=
  renderer.emit ((renderer.found root).map fun entry => renderer.node entry.fst).reverse

theorem matches_start : renderer.Matches [] {} where
  seen := by simp
  nodes := rfl
  nodup := List.nodup_nil
  defined := by simp

theorem level_start : renderer.Level (renderer.limit + 1) 0 [] where
  limited hpos := by
    rw [limit, if_pos hpos]
    omega
  unlimited hneg := by
    rw [limit, if_neg (by omega)]
    simp

inductive Walked (renderer : TypeGraphRenderer) (root : String) (fuel : Nat) : List GraphNode → Prop where
  | undefined (h : renderer.til.tinfoFromName root = none) : Walked renderer root fuel []
  | walked {ti s} (hti : renderer.til.tinfoFromName root = some ti)
    (hwalk : renderer.walk fuel ti 0 {} = some s) : Walked renderer root fuel s.nodes

def walkedNodes (renderer : TypeGraphRenderer) (root : String) : List GraphNode :=
  ((renderer.found root).map fun entry => renderer.node entry.fst).reverse

theorem exists_walked (renderer : TypeGraphRenderer) (root : String)
    : ∃ bound, ∀ fuel, bound ≤ fuel → renderer.Walked root fuel (renderer.walkedNodes root) := by
  unfold walkedNodes found
  by_cases hdefined : renderer.Defined root
  . have hroot := tinfoFromName_eq hdefined
    by_cases hkept : renderer.excludes (.named root) = false
    . rcases simulates hdefined hkept {} [] 0 matches_start level_start with ⟨s', hs', bound, hwalk⟩
      refine ⟨bound, ?_⟩
      intro fuel hfuel
      have hroots : renderer.roots root = [root] := if_pos ⟨hdefined, hkept⟩
      rw [hroots, entries, ← hs'.nodes]
      exact .walked hroot.left (hwalk fuel hfuel)
    . refine ⟨1, ?_⟩
      intro fuel hfuel
      have hroots : renderer.roots root = [] := if_neg fun h => hkept h.right
      have hname : root.isEmpty = false := by
        rw [String.isEmpty_eq_false_iff]
        apply hroot.right
      have hstop : ¬(0 ≤ renderer.options.maxDepth ∧ renderer.options.maxDepth < 0) := by
        omega
      cases fuel with
      | zero => omega
      | succ fuel =>
        rw [Bool.not_eq_false] at hkept
        have hwalk : renderer.walk (fuel + 1) (.named root) 0 {} = some { seen := [root] } := by
          unfold walk
          simp [hstop, Tinfo.typeName, hname, hkept]
        rw [hroots, entries, search_nil]
        exact .walked hroot.left hwalk
  . refine ⟨0, ?_⟩
    intro fuel _
    have hroots : renderer.roots root = [] := if_neg fun h => hdefined h.left
    rw [hroots, entries, search_nil]
    exact .undefined (tinfoFromName_eq_none hdefined)

theorem exists_render (renderer : TypeGraphRenderer) (root : String)
    : ∃ bound, ∀ fuel, bound ≤ fuel → renderer.render fuel root = some (renderer.dotOf root) := by
  rcases exists_walked renderer root with ⟨bound, hwalked⟩
  refine ⟨bound, ?_⟩
  intro fuel hfuel
  have hdot : renderer.dotOf root = renderer.emit (renderer.walkedNodes root) := rfl
  have hnodes := hwalked fuel hfuel
  rw [hdot]
  generalize renderer.walkedNodes root = nodes at hnodes
  cases hnodes with
  | undefined hnone =>
    unfold render
    rw [hnone, emit_nil]
  | walked hti hwalk =>
    unfold render
    rw [hti]
    dsimp only
    rw [hwalk]
    dsimp only [bind, Option.bind]
    split
    . next hempty => rw [List.isEmpty_iff.mp hempty, emit_nil]
    . rfl

theorem nodes_dotOf {name : String}
    : name ∈ (renderer.dotOf root).nodes ↔ name ∈ (renderer.found root).map Prod.fst := by
  rw [dotOf, emit_nodes, List.map_reverse, List.mem_reverse, List.map_map]
  rfl

theorem nodup_nodes_dotOf : (renderer.dotOf root).nodes.Nodup := by
  rw [dotOf, emit_nodes, List.map_reverse, List.nodup_reverse, List.map_map]
  apply nodup_entries

theorem edges_dotOf {source target : String}
    : (∃ edge ∈ (renderer.dotOf root).edges, edge.source = source ∧ edge.target = target)
        ↔ source ∈ (renderer.found root).map Prod.fst ∧ renderer.FieldStep source target := by
  rw [dotOf, mem_emit_edges]
  simp only [List.mem_reverse, List.mem_map, ← mem_fieldEdges_iff]
  constructor
  . rintro ⟨_, ⟨entry, hentry, heq⟩, hsource, hedge⟩
    subst heq
    rw [show entry.fst = source from hsource] at hedge
    exact ⟨⟨entry, hentry, hsource⟩, hedge⟩
  . rintro ⟨⟨entry, hentry, hsource⟩, hedge⟩
    subst hsource
    exact ⟨_, ⟨entry, hentry, rfl⟩, rfl, hedge⟩

theorem mem_roots_iff {name : String}
    : name ∈ renderer.roots root ↔ name = root ∧ renderer.Admissible root := by
  unfold roots
  split
  . next h => simp [h]
  . next h => simp [h]

theorem chain_iff {n : Nat} {name : String}
    : LimitedSearch.Chain renderer.succ (renderer.roots root) n name ↔ renderer.Chain root n name := by
  constructor
  . intro h
    induction h with
    | root hroot =>
      have hroot := mem_roots_iff.mp hroot
      rw [hroot.left]
      exact .root hroot.right
    | step _ hw ih =>
      have hw := mem_succ_iff.mp hw
      exact .step ih hw.left hw.right
  . intro h
    induction h with
    | root hroot => exact .root (mem_roots_iff.mpr ⟨rfl, hroot⟩)
    | step _ hstep hdefined ih => exact .step ih (mem_succ_iff.mpr ⟨hstep, hdefined⟩)

theorem Chain.defined {n : Nat} {name : String} (h : renderer.Chain root n name)
    : renderer.Defined name := by
  cases h with
  | root h => exact h.left
  | step _ _ hdefined => exact hdefined

theorem within_of_found {name : String} (h : name ∈ (renderer.found root).map Prod.fst)
    : renderer.Within root name := by
  rcases within_of_entered h with ⟨n, hn, hchain⟩
  refine ⟨n, ?_, chain_iff.mp hchain⟩
  intro hpos
  rw [limit, if_pos hpos] at hn
  omega

theorem Within.defined {name : String} (h : renderer.Within root name) : renderer.Defined name := by
  rcases h with ⟨_, _, hchain⟩
  apply hchain.defined

theorem not_found_at_limit (hneg : renderer.options.maxDepth < 0) (name : String)
    : (name, 0) ∉ renderer.found root := by
  intro h
  have hle : (renderer.found root).length ≤ renderer.typeCount := by
    apply length_le_typeCount nodup_entries
    intro name hname
    apply (within_of_found hname).defined
  have hlt : renderer.limit < 0 + (renderer.found root).length := limit_lt_length h
  rw [limit, if_neg (by omega)] at hlt
  omega

theorem found_of_chain (hneg : renderer.options.maxDepth < 0) {n : Nat} {name : String}
    (hchain : renderer.Chain root n name) : name ∈ (renderer.found root).map Prod.fst := by
  induction hchain with
  | root hroot => exact entered_iff_origin.mpr (.inl (mem_roots_iff.mpr ⟨rfl, hroot⟩))
  | @step n owner target _ hstep hdefined ih =>
    rw [List.mem_map] at ih
    rcases ih with ⟨⟨owner', left⟩, hfound, heq⟩
    rw [show owner' = owner from heq] at hfound
    cases left with
    | zero => exact absurd hfound (not_found_at_limit hneg owner)
    | succ more =>
      exact entered_iff_origin.mpr (.inr ⟨owner, more, hfound, mem_succ_iff.mpr ⟨hstep, hdefined⟩⟩)

theorem within_of_chain (hclosed : ∀ owner target, renderer.Within root owner
      → renderer.FieldStep owner target → renderer.Within root target)
    {n : Nat} {name : String} (hchain : renderer.Chain root n name) : renderer.Within root name := by
  induction hchain with
  | root hroot => exact ⟨0, by omega, .root hroot⟩
  | step _ hstep _ ih => exact hclosed _ _ ih hstep

theorem FieldStep.kept {owner target : String} (h : renderer.FieldStep owner target)
    : renderer.excludes (.named target) = false := by
  rcases h with ⟨_, _, _, _, _, _, _, hkept⟩
  apply hkept

theorem firstReached_iff (hpos : 0 ≤ renderer.options.maxDepth) {n : Nat} {name : String}
    : renderer.FirstReached root n name
        ↔ ∃ left, n + left = renderer.options.maxDepth.toNat ∧ (name, left) ∈ renderer.found root := by
  rw [found, limit, if_pos hpos]
  rfl

theorem firstReached_limit_iff (hpos : 0 ≤ renderer.options.maxDepth) {name : String}
    : renderer.FirstReached root renderer.options.maxDepth.toNat name
        ↔ (name, 0) ∈ renderer.found root := by
  rw [firstReached_iff hpos]
  constructor
  . intro ⟨left, hleft, hfound⟩
    rw [show left = 0 by omega] at hfound
    apply hfound
  . intro hfound
    exact ⟨0, rfl, hfound⟩

theorem exists_firstReached_iff (hpos : 0 ≤ renderer.options.maxDepth) {P : String → Prop}
    : (∃ owner k, k < renderer.options.maxDepth.toNat ∧ renderer.FirstReached root k owner ∧ P owner)
        ↔ ∃ owner more, (owner, more + 1) ∈ renderer.found root ∧ P owner := by
  have hlimit : renderer.limit = renderer.options.maxDepth.toNat := if_pos hpos
  constructor
  . intro ⟨owner, k, hk, hreached, howner⟩
    rcases (firstReached_iff hpos).mp hreached with ⟨left, hleft, hfound⟩
    rw [show left = left - 1 + 1 by omega] at hfound
    exact ⟨owner, left - 1, hfound, howner⟩
  . intro ⟨owner, more, hfound, howner⟩
    have hle := left_le hfound
    refine ⟨owner, renderer.limit - (more + 1), by omega, ?_, howner⟩
    rw [firstReached_iff hpos]
    exact ⟨more + 1, by omega, hfound⟩

theorem detoursHarmless_iff
    : LimitedSearch.DetoursHarmless renderer.succ renderer.limit (renderer.roots root)
        ↔ renderer.DetoursHarmless root := by
  rcases Int.lt_or_le renderer.options.maxDepth 0 with hneg | hpos
  . constructor
    . intro _ hpos
      omega
    . intro _ name n hfound
      exact absurd hfound (not_found_at_limit hneg name)
  . have hlimit : renderer.limit = renderer.options.maxDepth.toNat := if_pos hpos
    unfold DetoursHarmless LimitedSearch.DetoursHarmless
    simp only [exists_firstReached_iff hpos, firstReached_limit_iff hpos, chain_iff, mem_succ_iff,
      mem_roots_iff, hpos, true_imp_iff, hlimit]
    constructor
    . intro h name n hfound hn hchain target hstep hdefined
      rw [found, hlimit] at hfound
      rcases h name n hfound hn hchain target ⟨hstep, hdefined⟩ with ⟨heq, _⟩ | ⟨owner, more, hmem, hw⟩
      . exact .inl heq
      . rw [found, hlimit]
        exact .inr ⟨owner, more, hmem, hw.left⟩
    . intro h name n hfound hn hchain target ⟨hstep, hdefined⟩
      rw [found, hlimit] at h
      rcases h name n hfound hn hchain target hstep hdefined with heq | ⟨owner, more, hmem, hw⟩
      . have hkept := hstep.kept
        rw [heq] at hdefined hkept
        exact .inl ⟨heq, hdefined, hkept⟩
      . exact .inr ⟨owner, more, hmem, hw, hdefined⟩

theorem found_iff_within
    : (∀ name, name ∈ (renderer.found root).map Prod.fst ↔ renderer.Within root name)
        ↔ renderer.DetoursHarmless root := by
  rw [← detoursHarmless_iff, ← entered_iff_within]
  constructor
  . intro h name
    constructor
    . apply within_of_entered
    . intro ⟨n, hn, hchain⟩
      rw [chain_iff] at hchain
      rw [← found, h]
      refine ⟨n, ?_, hchain⟩
      intro hpos
      rw [limit, if_pos hpos] at hn
      omega
  . intro h name
    refine ⟨within_of_found, ?_⟩
    intro ⟨n, hn, hchain⟩
    rcases Int.lt_or_le renderer.options.maxDepth 0 with hneg | hpos
    . apply found_of_chain hneg hchain
    . rw [found, h]
      refine ⟨n, ?_, chain_iff.mpr hchain⟩
      have hn := hn hpos
      rw [limit, if_pos hpos]
      omega

theorem complete_iff
    : (∀ name, name ∈ (renderer.dotOf root).nodes ↔ renderer.Within root name)
        ↔ renderer.DetoursHarmless root := by
  rw [← found_iff_within]
  simp only [nodes_dotOf]

theorem closed_iff (hcomplete : ∀ name, name ∈ (renderer.dotOf root).nodes ↔ renderer.Within root name)
    : (∀ edge ∈ (renderer.dotOf root).edges,
          edge.source ∈ (renderer.dotOf root).nodes ∧ edge.target ∈ (renderer.dotOf root).nodes)
        ↔ renderer.FieldsWithin root := by
  constructor
  . intro hclosed
    have hstep : ∀ owner target, renderer.Within root owner → renderer.FieldStep owner target
        → renderer.Within root target := by
      intro owner target howner hstep
      rw [← hcomplete, nodes_dotOf] at howner
      rcases edges_dotOf.mpr ⟨howner, hstep⟩ with ⟨edge, hedge, _, htarget⟩
      rw [← hcomplete, ← htarget]
      apply (hclosed edge hedge).right
    intro n owner target hchain hfield
    have htarget := hstep owner target (within_of_chain hstep hchain) hfield
    exact ⟨htarget.defined, htarget⟩
  . intro hfields edge hedge
    have hedge := edges_dotOf.mp ⟨edge, hedge, rfl, rfl⟩
    rw [hcomplete, hcomplete]
    have hsource := within_of_found hedge.left
    rcases hsource with ⟨n, hn, hchain⟩
    exact ⟨⟨n, hn, hchain⟩, (hfields n _ _ hchain hedge.right).right⟩

theorem closedAndComplete_iff
    : renderer.ClosedAndComplete root (renderer.dotOf root)
        ↔ renderer.FieldsWithin root ∧ renderer.DetoursHarmless root := by
  constructor
  . intro h
    exact ⟨(closed_iff h.complete).mp h.closed, complete_iff.mp h.complete⟩
  . intro ⟨hfields, hdetours⟩
    have hcomplete := complete_iff.mpr hdetours
    exact ⟨hcomplete, nodup_nodes_dotOf, (closed_iff hcomplete).mpr hfields⟩

/--
Rendering finishes, with each type once and none that is too deep. The types are complete exactly if
detours are harmless, and the graph is also closed exactly if besides no field below the root leads
too deep or to a type that is not defined.
-/
theorem render_closedAndComplete_iff (renderer : TypeGraphRenderer) (root : String)
    : ∃ dot, (∃ bound, ∀ fuel, bound ≤ fuel → renderer.render fuel root = some dot)
        ∧ (∀ name ∈ dot.nodes, renderer.Within root name) ∧ dot.nodes.Nodup
        ∧ ((∀ name, name ∈ dot.nodes ↔ renderer.Within root name) ↔ renderer.DetoursHarmless root)
        ∧ (renderer.ClosedAndComplete root dot
            ↔ renderer.FieldsWithin root ∧ renderer.DetoursHarmless root) := by
  refine ⟨renderer.dotOf root, exists_render renderer root, ?_, nodup_nodes_dotOf, complete_iff,
    closedAndComplete_iff⟩
  intro name hname
  apply within_of_found (nodes_dotOf.mp hname)

/--
`struct R { struct A a; struct B b; }`, `struct A { struct B b; }`, `struct B { struct C c; }` and
`struct C { }`, with a maximal depth of 2.
-/
def detour : TypeGraphRenderer :=
  { til :=
      { types :=
          [ ("R", .udt { members := [⟨"a", .named "A", 0, 32, false⟩, memberB], totalSize := 8 })
          , ("A", .udt { members := [⟨"b", .named "B", 0, 32, false⟩], totalSize := 4 })
          , ("B", .udt { members := [memberC], totalSize := 4 })
          , ("C", .udt { members := [], totalSize := 4 }) ]
        numbered := fun _ => none
        ordinalOf := fun _ => 0
        print := fun _ name => "struct " ++ name ++ ";" }
    isTypedef := fun _ => false
    options := { maxDepth := 2 } }
where
  memberB : Udm := ⟨"b", .named "B", 32, 32, false⟩
  memberC : Udm := ⟨"c", .named "C", 0, 32, false⟩

theorem not_closedAndComplete_detour
    : ∃ dot, detour.render 8 "R" = some dot ∧ dot.nodes = ["R", "A", "B"]
        ∧ detour.Within "R" "C" ∧ ⟨"B", none, "C"⟩ ∈ dot.edges
        ∧ ¬detour.ClosedAndComplete "R" dot := by
  have hwithin : detour.Within "R" "C" := by
    refine ⟨2, by decide, ?_⟩
    have hR : detour.Chain "R" 0 "R" := .root (by decide)
    have hB : detour.Chain "R" 1 "B" :=
      hR.step ⟨_, detour.memberB, rfl, by simp, rfl, by decide⟩ (by decide)
    apply hB.step ⟨_, detour.memberC, rfl, by simp, rfl, by decide⟩ (by decide)
  have hrender : detour.render 8 "R" = some
      { nodes := ["R", "A", "B"]
        edges := [⟨"R", none, "A"⟩, ⟨"R", none, "B"⟩, ⟨"A", none, "B"⟩, ⟨"B", none, "C"⟩] } := by
    decide
  refine ⟨_, hrender, rfl, hwithin, by decide, ?_⟩
  intro h
  have hmem := (h.complete "C").mpr hwithin
  revert hmem
  decide

end Search

end TypeGraphRenderer
end Types
end Idax
