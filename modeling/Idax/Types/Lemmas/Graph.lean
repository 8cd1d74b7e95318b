import Mathlib.Data.List.Perm.Subperm
import Idax.Library.LimitedSearch
import Idax.Types.Graph

/-!
The walk of the graph renderer is a depth-first search, limited to the maximal depth or, without one,
to the number of types that there are. Its vertices are the types that are not excluded.
-/

namespace Idax
namespace Types
namespace TypeGraphRenderer

open LimitedSearch

variable (renderer : TypeGraphRenderer)

def Defined (name : String) : Prop :=
  (renderer.til.tinfoFromName name).isSome

instance (name : String) : Decidable (renderer.Defined name) :=
  inferInstanceAs (Decidable ((renderer.til.tinfoFromName name).isSome = true))

/--
A member of the struct `owner` is of the type `target`, with up to 15 pointers and arrays in between.
-/
def FieldStep (owner target : String) : Prop :=
  ∃ udt m, renderer.til.udtDetails? (.named owner) = some udt ∧ m ∈ udt.members
    ∧ resolveNamed maxHops m.type = .named target ∧ target ≠ "" ∧ target ≠ owner
    ∧ renderer.excludes (.named target) = false

def targets (edges : List FieldEdge) : List String :=
  (edges.map (·.targetName)).filter renderer.Defined

def succ (name : String) : List String :=
  renderer.targets (renderer.fieldEdges name (.named name))

def node (name : String) : GraphNode :=
  { name, edges := renderer.fieldEdges name (.named name) }

def typeCount : Nat :=
  renderer.til.types.length

structure Matches (entered : List (String × Nat)) (s : GraphState) : Prop where
  seen : ∀ name, name ∈ s.seen ↔ name ∈ entered.map Prod.fst
  nodes : s.nodes = (entered.map fun entry => renderer.node entry.fst).reverse
  nodup : (entered.map Prod.fst).Nodup
  defined : ∀ name ∈ entered.map Prod.fst, renderer.Defined name

structure Level (left : Nat) (depth : Int) (entered : List (String × Nat)) : Prop where
  limited : 0 ≤ renderer.options.maxDepth → depth = renderer.options.maxDepth + 1 - left
  unlimited : renderer.options.maxDepth < 0 → renderer.typeCount < left + entered.length

def edgeStep (fuel : Nat) (depth : Int) (s : GraphState) (edge : FieldEdge) : Option GraphState :=
  if edge.targetName ∈ s.seen then
    some s
  else
    match renderer.til.tinfoFromName edge.targetName with
    | none => some s
    | some target => renderer.walk fuel target (depth + 1) s

variable {renderer}

theorem tinfoFromName_eq {name : String} (h : renderer.Defined name)
    : renderer.til.tinfoFromName name = some (.named name) ∧ name ≠ "" := by
  unfold Defined Til.tinfoFromName at h
  unfold Til.tinfoFromName
  split at h
  . cases h
  . next hname =>
    rcases Option.isSome_iff_exists.mp h with ⟨ti, hti⟩
    rw [hti]
    rw [Option.map_eq_some_iff] at hti
    rcases hti with ⟨_, _, heq⟩
    subst heq
    rw [Bool.not_eq_true, String.isEmpty_eq_false_iff] at hname
    simp [hname]

theorem tinfoFromName_eq_none {name : String} (h : ¬renderer.Defined name)
    : renderer.til.tinfoFromName name = none := by
  unfold Defined at h
  simpa using h

theorem mem_types_of_defined {name : String} (h : renderer.Defined name)
    : name ∈ renderer.til.types.map Prod.fst := by
  have hsome := (tinfoFromName_eq h).left
  unfold Til.tinfoFromName Til.kind? at hsome
  split at hsome
  . cases hsome
  . rw [Option.map_eq_some_iff] at hsome
    rcases hsome with ⟨kind, hkind, _⟩
    rw [List.lookup_eq_some_iff] at hkind
    rcases hkind with ⟨before, after, heq, _⟩
    rw [heq]
    simp

theorem length_le_typeCount {entered : List (String × Nat)} (hnodup : (entered.map Prod.fst).Nodup)
    (hdefined : ∀ name ∈ entered.map Prod.fst, renderer.Defined name)
    : entered.length ≤ renderer.typeCount := by
  have hsub : (entered.map Prod.fst).Subperm (renderer.til.types.map Prod.fst) := by
    apply hnodup.subperm
    intro name hname
    apply mem_types_of_defined (hdefined name hname)
  have hle := hsub.length_le
  rw [List.length_map, List.length_map] at hle
  apply hle

section Edges

theorem typeName_resolveNamed (hops : Nat) (ti : Tinfo) {name : String} (hname : name ≠ "")
    : (resolveNamed hops ti).typeName = name ↔ resolveNamed hops ti = .named name := by
  fun_induction resolveNamed hops ti with
  | case1 => simp [Tinfo.typeName, hname.symm]
  | case2 => simp [Tinfo.typeName, hname.symm]
  | case3 _ _ ih => apply ih
  | case4 _ _ ih => apply ih
  | case5 => simp [Tinfo.typeName, hname.symm]
  | case6 _ ti _ _ _ hne =>
    cases ti <;> simp_all [Tinfo.typeName]

theorem fieldEdge_eq_some_iff {owner target : String} {i : Nat} {m : Udm}
    : (∃ edge, renderer.fieldEdge owner i m = some edge ∧ edge.targetName = target)
        ↔ resolveNamed maxHops m.type = .named target ∧ target ≠ "" ∧ target ≠ owner
          ∧ renderer.excludes (.named target) = false := by
  unfold fieldEdge
  constructor
  . intro ⟨edge, hedge, htarget⟩
    dsimp only at hedge
    split at hedge
    . cases hedge
    . next hname =>
      split at hedge
      . cases hedge
      . next hkept =>
        cases hedge
        dsimp only at htarget
        rw [htarget] at hname
        rw [not_or, Bool.not_eq_true, String.isEmpty_eq_false_iff] at hname
        have hnamed := (typeName_resolveNamed _ _ hname.left).mp htarget
        rw [hnamed] at hkept
        simp only [hnamed, true_and]
        refine ⟨hname.left, hname.right, by simpa using hkept⟩
  . intro ⟨hnamed, hne, hother, hkept⟩
    refine ⟨{ fieldIndex := i, targetName := target }, ?_, rfl⟩
    simp [hnamed, Tinfo.typeName, hne, hother, hkept]

theorem mem_fieldEdges_iff {owner target : String}
    : (∃ edge ∈ renderer.fieldEdges owner (.named owner), edge.targetName = target)
        ↔ renderer.FieldStep owner target := by
  unfold fieldEdges FieldStep
  cases hudt : renderer.til.udtDetails? (.named owner) with
  | none => simp
  | some udt =>
    constructor
    . intro ⟨edge, hedge, htarget⟩
      rw [List.mem_filterMap] at hedge
      rcases hedge with ⟨⟨m, i⟩, hmem, hedge⟩
      refine ⟨udt, m, rfl, ?_, fieldEdge_eq_some_iff.mp ⟨edge, hedge, htarget⟩⟩
      rw [List.mem_iff_getElem?]
      exact ⟨i, List.mem_zipIdx_iff_getElem?.mp hmem⟩
    . intro ⟨_, m, hdetails, hmem, htarget⟩
      cases hdetails
      rcases List.mem_iff_getElem?.mp hmem with ⟨i, hi⟩
      rcases (fieldEdge_eq_some_iff (i := i)).mpr htarget with ⟨edge, hedge, heq⟩
      refine ⟨edge, ?_, heq⟩
      rw [List.mem_filterMap]
      exact ⟨(m, i), List.mem_zipIdx_iff_getElem?.mpr hi, hedge⟩

theorem mem_succ_iff {owner target : String}
    : target ∈ renderer.succ owner ↔ renderer.FieldStep owner target ∧ renderer.Defined target := by
  unfold succ targets
  rw [← mem_fieldEdges_iff]
  simp only [List.mem_filter, List.mem_map, decide_eq_true_eq]

end Edges

section Simulation

variable {left : Nat} {depth : Int} {entered : List (String × Nat)} {s : GraphState}

theorem Level.mono {entered' : List (String × Nat)} (h : renderer.Level left depth entered)
    (hle : entered.length ≤ entered'.length) : renderer.Level left depth entered' where
  limited := h.limited
  unlimited hneg := by
    have hlt := h.unlimited hneg
    omega

theorem Level.below {name : String} (h : renderer.Level (left + 1) depth entered)
    : renderer.Level left (depth + 1) ((name, left) :: entered) where
  limited hpos := by
    have heq := h.limited hpos
    omega
  unlimited hneg := by
    have hlt := h.unlimited hneg
    rw [List.length_cons]
    omega

theorem Level.stops_iff (h : renderer.Level left depth entered) (hmatches : renderer.Matches entered s)
    : 0 ≤ renderer.options.maxDepth ∧ renderer.options.maxDepth < depth ↔ left = 0 := by
  have hle := length_le_typeCount hmatches.nodup hmatches.defined
  constructor
  . intro ⟨hpos, hlt⟩
    have heq := h.limited hpos
    omega
  . intro hleft
    rcases Int.lt_or_le renderer.options.maxDepth 0 with hneg | hpos
    . have hlt := h.unlimited hneg
      omega
    . have heq := h.limited hpos
      omega

theorem Matches.enter {name : String} (h : renderer.Matches entered s)
    (hdefined : renderer.Defined name) (hnew : name ∉ s.seen)
    : renderer.Matches ((name, left) :: entered)
        { nodes := s.nodes ++ [renderer.node name], seen := name :: s.seen } where
  seen other := by simp [h.seen]
  nodes := by simp [h.nodes]
  nodup := by
    rw [h.seen] at hnew
    rw [List.map_cons, List.nodup_cons]
    apply And.intro hnew h.nodup
  defined other hother := by
    rw [List.map_cons, List.mem_cons] at hother
    cases hother with
    | inl heq =>
      rw [show other = name from heq]
      apply hdefined
    | inr hold => apply h.defined other hold

def Simulates (left : Nat) (name : String) : Prop :=
  ∀ s entered depth, renderer.Matches entered s → renderer.Level left depth entered
    → ∃ s', renderer.Matches (search renderer.succ left entered [name]) s'
      ∧ ∃ bound, ∀ fuel, bound ≤ fuel → renderer.walk fuel (.named name) depth s = some s'

theorem simulates_edges (hone : ∀ name, renderer.Defined name → renderer.excludes (.named name) = false
      → renderer.Simulates left name)
    (edges : List FieldEdge)
    (hedges : ∀ edge ∈ edges, renderer.excludes (.named edge.targetName) = false)
    (hmatches : renderer.Matches entered s) (hlevel : renderer.Level left (depth + 1) entered)
    : ∃ s', renderer.Matches (search renderer.succ left entered (renderer.targets edges)) s'
        ∧ ∃ bound, ∀ fuel, bound ≤ fuel → edges.foldlM (renderer.edgeStep fuel depth) s = some s' := by
  induction edges generalizing s entered with
  | nil =>
    refine ⟨s, ?_, 0, fun _ _ => rfl⟩
    simpa [targets] using hmatches
  | cons edge edges ih =>
    have hkept := hedges edge List.mem_cons_self
    have hrest : ∀ edge ∈ edges, renderer.excludes (.named edge.targetName) = false :=
      fun edge hedge => hedges edge (List.mem_cons_of_mem _ hedge)
    by_cases hdefined : renderer.Defined edge.targetName
    . have htargets : renderer.targets (edge :: edges) = [edge.targetName] ++ renderer.targets edges := by
        simp [targets, hdefined]
      rw [htargets, search_append]
      by_cases hseen : edge.targetName ∈ s.seen
      . rw [search_cons_seen ((hmatches.seen _).mp hseen), search_nil]
        rcases ih hrest hmatches hlevel with ⟨s', hs', bound, hfold⟩
        refine ⟨s', hs', bound, ?_⟩
        intro fuel hfuel
        rw [List.foldlM_cons, edgeStep, if_pos hseen]
        apply hfold fuel hfuel
      . rcases hone _ hdefined hkept s entered (depth + 1) hmatches hlevel with ⟨mid, hmid, b1, h1⟩
        rcases ih hrest hmid (hlevel.mono length_le) with ⟨s', hs', b2, h2⟩
        refine ⟨s', hs', max b1 b2, ?_⟩
        intro fuel hfuel
        rw [List.foldlM_cons, edgeStep, if_neg hseen, (tinfoFromName_eq hdefined).left]
        dsimp only
        rw [h1 fuel (by omega)]
        apply h2 fuel (by omega)
    . have htargets : renderer.targets (edge :: edges) = renderer.targets edges := by
        simp [targets, hdefined]
      rw [htargets]
      rcases ih hrest hmatches hlevel with ⟨s', hs', bound, hfold⟩
      refine ⟨s', hs', bound, ?_⟩
      intro fuel hfuel
      rw [List.foldlM_cons, edgeStep, tinfoFromName_eq_none hdefined]
      rw [show (if edge.targetName ∈ s.seen then some s else some s) = some s from ite_self _]
      apply hfold fuel hfuel

theorem simulates {name : String} (hdefined : renderer.Defined name)
    (hkept : renderer.excludes (.named name) = false) : renderer.Simulates left name := by
  induction left generalizing name with
  | zero =>
    intro s entered depth hmatches hlevel
    refine ⟨s, hmatches, 1, ?_⟩
    intro fuel hfuel
    have hstop := (hlevel.stops_iff hmatches).mpr rfl
    cases fuel with
    | zero => omega
    | succ fuel => simp [walk, hstop]
  | succ left ih =>
    intro s entered depth hmatches hlevel
    have hgo : ¬(0 ≤ renderer.options.maxDepth ∧ renderer.options.maxDepth < depth) := by
      rw [hlevel.stops_iff hmatches]
      omega
    have hname : name.isEmpty = false := by
      rw [String.isEmpty_eq_false_iff]
      apply (tinfoFromName_eq hdefined).right
    by_cases hseen : name ∈ s.seen
    . rw [search_cons_seen ((hmatches.seen _).mp hseen), search_nil]
      refine ⟨s, hmatches, 1, ?_⟩
      intro fuel hfuel
      cases fuel with
      | zero => omega
      | succ fuel => simp [walk, hgo, Tinfo.typeName, hseen]
    . have hnew : name ∉ entered.map Prod.fst := by
        rw [← hmatches.seen]
        apply hseen
      rw [search_cons_enter hnew, search_nil]
      have hedges : ∀ edge ∈ renderer.fieldEdges name (.named name),
          renderer.excludes (.named edge.targetName) = false := by
        intro edge hedge
        rcases mem_fieldEdges_iff.mp ⟨edge, hedge, rfl⟩ with ⟨_, _, _, _, _, _, _, hkept⟩
        apply hkept
      rcases simulates_edges (fun _ => ih) _ hedges (hmatches.enter hdefined hseen) hlevel.below
        with ⟨s', hs', bound, hfold⟩
      refine ⟨s', hs', bound + 1, ?_⟩
      intro fuel hfuel
      cases fuel with
      | zero => omega
      | succ fuel =>
        unfold walk
        simp only [hgo, Tinfo.typeName, hname, hseen, hkept, Bool.false_eq_true, or_self, if_false]
        apply hfold fuel (by omega)

end Simulation

end TypeGraphRenderer
end Types
end Idax
