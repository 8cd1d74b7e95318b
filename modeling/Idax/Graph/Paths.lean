import Mathlib.Order.Interval.Finset.Basic
import Mathlib.Data.Int.Interval
import Idax.Graph.Edges
import Idax.Library.Worklist

/-!
What `pathExists` decides. It is a search along the edges whose targets are in the node table; nodes
that no longer exist are in the table too, and a node has a path to itself before it is looked up.
-/

namespace Idax
namespace Graph

namespace Impl

namespace pathExists

structure Represents (sz : Int) (visited : List Bool) (seen : Int → Bool) : Prop where
  length : visited.length = sz.toNat
  marks : ∀ n, 0 ≤ n → n < sz → visitedAt visited n = some (seen n)

def inTable (sz n : Int) : Bool :=
  decide (0 ≤ n) && decide (n < sz)

def targets (cur : Int) (es : List (Int × Int)) : List Int :=
  es.filterMap fun e => if e.1 == cur then some e.2 else none

theorem inTable_iff (sz n : Int) : inTable sz n = true ↔ 0 ≤ n ∧ n < sz := by
  simp [inTable]

theorem Represents.mark {sz : Int} {visited : List Bool} {seen : Int → Bool}
    (h : Represents sz visited seen) {n : Int} (hn : 0 ≤ n ∧ n < sz)
    : ∃ visited', pathExists.mark visited n = some visited'
        ∧ Represents sz visited' (Function.update seen n true) := by
  have hlength := h.length
  refine ⟨visited.set n.toNat true, ?_, ?_, ?_⟩
  . unfold pathExists.mark
    rw [if_pos (by omega)]
  . rw [List.length_set, hlength]
  . intro m hm hsz
    have hold := h.marks m hm hsz
    unfold visitedAt at hold ⊢
    rw [if_pos hm] at hold ⊢
    rw [List.getElem?_set]
    by_cases heq : m = n
    . subst heq
      rw [if_pos rfl, if_pos (by omega)]
      simp
    . rw [if_neg (by omega), hold]
      simp [heq]

theorem scanEdges_eq {sz : Int} (cur target : Int) (es : List (Int × Int)) {visited : List Bool}
    {seen : Int → Bool} (h : Represents sz visited seen) (queue : List Int)
    : match Worklist.visit (inTable sz) target (targets cur es) ⟨seen, queue⟩ with
      | none => scanEdges sz cur target es visited queue = .found
      | some s => ∃ visited', scanEdges sz cur target es visited queue = .done visited' s.queue
          ∧ Represents sz visited' s.seen := by
  induction es generalizing visited seen queue with
  | nil => exact ⟨visited, rfl, h⟩
  | cons e es ih =>
    unfold targets scanEdges
    rw [List.filterMap_cons]
    by_cases hcur : (e.1 == cur) = true
    . rw [if_pos hcur, if_pos hcur]
      dsimp only
      unfold Worklist.visit
      by_cases htarget : e.2 = target
      . simp [htarget]
      . have hne : (e.2 == target) = false := by simpa using htarget
        rw [if_neg htarget]
        simp only [hne, Bool.false_eq_true, ↓reduceIte]
        by_cases htable : 0 ≤ e.2 ∧ e.2 < sz
        . rw [if_pos htable, h.marks e.2 htable.left htable.right]
          simp only [(inTable_iff sz e.2).mpr htable, Bool.true_and]
          cases hseen : seen e.2 with
          | true => apply ih h queue
          | false =>
            rcases h.mark htable with ⟨visited', hmark, h'⟩
            simp only [hmark]
            apply ih h' (queue ++ [e.2])
        . have hout : inTable sz e.2 = false := by
            rw [← Bool.not_eq_true, inTable_iff]
            apply htable
          rw [if_neg htable]
          simp only [hout, Bool.false_and, Bool.false_eq_true, ↓reduceIte]
          apply ih h queue
    . rw [if_neg hcur, if_neg hcur]
      apply ih h queue

theorem search_eq {sz : Int} (target : Int) (edgeList : List (Int × Int)) (fuel : Nat) {visited : List Bool}
    {seen : Int → Bool} (h : Represents sz visited seen) (queue : List Int)
    : search sz target edgeList fuel visited queue
        = (Worklist.search (targets · edgeList) (inTable sz) target fuel ⟨seen, queue⟩).map .answer := by
  induction fuel generalizing visited seen queue with
  | zero => cases queue <;> rfl
  | succ fuel ih =>
    cases queue with
    | nil => rfl
    | cons cur queue =>
      unfold search Worklist.search
      have hscan := scanEdges_eq cur target edgeList h queue
      cases hvisit : Worklist.visit (inTable sz) target (targets cur edgeList) ⟨seen, queue⟩ with
      | none =>
        rw [hvisit] at hscan
        rw [hscan]
        rfl
      | some s =>
        rw [hvisit] at hscan
        rcases hscan with ⟨visited', hdone, h'⟩
        rw [hdone]
        apply ih h'

theorem represents_replicate (sz : Int)
    : Represents sz (List.replicate sz.toNat false) fun _ => false := by
  constructor
  case length => apply List.length_replicate
  case marks =>
    intro n hn hsz
    unfold visitedAt
    rw [if_pos hn, List.getElem?_replicate, if_pos (by omega)]

theorem represents_start (sz : Int) {source : Int} (h : 0 ≤ source ∧ source < sz)
    : ∃ visited, mark (List.replicate sz.toNat false) source = some visited
        ∧ Represents sz visited (Worklist.start source).seen := by
  have hseen : (Worklist.start source).seen = Function.update (fun _ => false) source true := by
    funext n
    by_cases heq : n = source
    . simp [Worklist.start, heq]
    . simp [Worklist.start, heq]
  rw [hseen]
  apply (represents_replicate sz).mark h

end pathExists

def Leads (impl : Impl) (source target : Int) : Prop :=
  Worklist.Finds (pathExists.targets · impl.edgeList) (pathExists.inTable impl.totalCount) target source

theorem pathExists_of_ne {impl : Impl} {source target : Int} (hne : source ≠ target)
    (hsource : impl.valid source = true) (htarget : impl.valid target = true)
    : ∃ b, (∀ fuel, impl.nodes.length + 1 ≤ fuel
          → impl.pathExists source target fuel = some (.answer b))
        ∧ (b = true ↔ impl.Leads source target) := by
  have hdomain : ∀ n, pathExists.inTable impl.totalCount n = true
      → n ∈ Finset.Ico 0 impl.totalCount := by
    intro n hn
    rw [Finset.mem_Ico]
    apply (pathExists.inTable_iff _ n).mp hn
  have hcard : (Finset.Ico 0 impl.totalCount).card = impl.nodes.length := by
    simp [totalCount]
  rcases Worklist.search_start hdomain source with ⟨b, hsearch, hiff⟩
  refine ⟨b, ?_, hiff⟩
  intro fuel hfuel
  rcases pathExists.represents_start impl.totalCount (valid_lt_length impl source hsource)
    with ⟨visited, hmark, hrepresents⟩
  have hfound := hsearch fuel (by omega)
  unfold pathExists
  rw [if_neg (by simpa using hne)]
  simp only [hsource, htarget, Bool.not_true, Bool.or_self, Bool.false_eq_true, ↓reduceIte, hmark]
  rw [pathExists.search_eq target impl.edgeList fuel hrepresents [source]]
  exact congrArg (Option.map PathResult.answer) hfound

end Impl

def Connected (g : Graph) (source target : Int) : Prop :=
  g.nodeExists source = true ∧ g.nodeExists target = true
    ∧ Relation.ReflTransGen
        (fun a b => (a, b) ∈ g.edges ∧ g.nodeExists a = true ∧ g.nodeExists b = true) source target

def DecidesReachability (g : Graph) (source target : Int) : Prop :=
  ∃ b bound, (∀ fuel, bound ≤ fuel → g.pathExists source target fuel = some (.answer b))
    ∧ (b = true ↔ g.Connected source target)

/--
Two nodes that exist are joined by edges between entries of the node table, but not by edges between
nodes that exist.
-/
def JoinedThroughMissing (g : Graph) (source target : Int) : Prop :=
  source ≠ target ∧ g.nodeExists source = true ∧ g.nodeExists target = true
    ∧ Relation.ReflTransGen (fun a b => (a, b) ∈ g.edges ∧ 0 ≤ b ∧ b < g.totalNodeCount) source target
    ∧ ¬g.Connected source target

theorem leads_iff {impl : Impl} {source target : Int} (hne : source ≠ target)
    (htarget : impl.valid target = true)
    : impl.Leads source target
        ↔ Relation.ReflTransGen
            (fun a b => (a, b) ∈ impl.edgeList ∧ 0 ≤ b ∧ b < impl.totalCount) source target := by
  have hmem : ∀ a b, b ∈ Impl.pathExists.targets a impl.edgeList ↔ (a, b) ∈ impl.edgeList := by
    intro a b
    simp [Impl.pathExists.targets, List.mem_filterMap]
  have hstep : Worklist.Step (Impl.pathExists.targets · impl.edgeList)
        (Impl.pathExists.inTable impl.totalCount)
      = fun a b => (a, b) ∈ impl.edgeList ∧ 0 ≤ b ∧ b < impl.totalCount := by
    funext a b
    simp only [Worklist.Step, hmem, Impl.pathExists.inTable_iff]
  unfold Impl.Leads Worklist.Finds
  rw [hstep]
  constructor
  . intro ⟨x, hpath, hlast⟩
    rw [hmem] at hlast
    apply hpath.tail
    exact ⟨hlast, Impl.valid_lt_length impl target htarget⟩
  . intro hpath
    cases hpath with
    | refl => exact absurd rfl hne
    | tail hpath hlast => exact ⟨_, hpath, (hmem _ _).mpr hlast.left⟩

theorem pathExists_some (impl : Impl) (source target : Int) (fuel : Nat)
    : pathExists ⟨some impl⟩ source target fuel = impl.pathExists source target fuel :=
  rfl

theorem decidesReachability_of_answer {g : Graph} {source target : Int} {b : Bool} {bound : Nat}
    (h : ∀ fuel, bound ≤ fuel → g.pathExists source target fuel = some (.answer b))
    : g.DecidesReachability source target ↔ (b = true ↔ g.Connected source target) := by
  constructor
  . intro ⟨b', bound', h', hiff⟩
    have hsame := h (max bound bound') (Nat.le_max_left _ _)
    rw [h' (max bound bound') (Nat.le_max_right _ _)] at hsame
    injection hsame with hsame
    injection hsame with hsame
    rw [← hsame]
    exact hiff
  . intro hiff
    exact ⟨b, bound, h, hiff⟩

theorem Connected.joined {impl : Impl} {source target : Int} (h : Connected ⟨some impl⟩ source target)
    : Relation.ReflTransGen
        (fun a b => (a, b) ∈ impl.edgeList ∧ 0 ≤ b ∧ b < impl.totalCount) source target := by
  refine Relation.ReflTransGen.mono ?_ _ _ h.right.right
  intro a b ⟨hedge, _, hb⟩
  exact ⟨hedge, Impl.valid_lt_length impl b hb⟩

theorem decidesReachability_some_iff (impl : Impl) (source target : Int)
    : DecidesReachability ⟨some impl⟩ source target
        ↔ (source = target → nodeExists ⟨some impl⟩ source = true)
            ∧ ¬JoinedThroughMissing ⟨some impl⟩ source target := by
  by_cases hself : source = target
  . subst hself
    have hanswer : ∀ fuel, 0 ≤ fuel
        → pathExists ⟨some impl⟩ source source fuel = some (.answer true) := by
      intro fuel _
      simp [pathExists_some, Impl.pathExists]
    rw [decidesReachability_of_answer hanswer]
    unfold Connected JoinedThroughMissing
    simp [Relation.ReflTransGen.refl]
  . by_cases hends : impl.valid source = true ∧ impl.valid target = true
    . rcases Impl.pathExists_of_ne hself hends.left hends.right with ⟨b, hanswer, hiff⟩
      rw [decidesReachability_of_answer hanswer, hiff, leads_iff hself hends.right]
      constructor
      . intro hjoined
        refine ⟨fun heq => absurd heq hself, ?_⟩
        intro hmissing
        apply hmissing.right.right.right.right
        apply hjoined.mp hmissing.right.right.right.left
      . intro ⟨_, hmissing⟩
        constructor
        . intro hpath
          by_contra hnot
          apply hmissing
          exact ⟨hself, hends.left, hends.right, hpath, hnot⟩
        . exact Connected.joined
    . have hanswer : ∀ fuel, 0 ≤ fuel
          → pathExists ⟨some impl⟩ source target fuel = some (.answer false) := by
        intro fuel _
        rw [not_and_or, Bool.not_eq_true, Bool.not_eq_true] at hends
        rw [pathExists_some]
        unfold Impl.pathExists
        rw [if_neg (by simpa using hself)]
        cases hends with
        | inl hsource => simp [hsource]
        | inr htarget => simp [htarget]
      rw [decidesReachability_of_answer hanswer]
      constructor
      . intro _
        refine ⟨fun heq => absurd heq hself, ?_⟩
        intro hmissing
        exact hends ⟨hmissing.right.left, hmissing.right.right.left⟩
      . intro _
        simp only [Bool.false_eq_true, false_iff]
        intro hconnected
        exact hends ⟨hconnected.left, hconnected.right.left⟩

theorem exists_impl_step {g : Graph} {impl : Impl} (h : g.impl = some impl) (op : Op)
    : ∃ impl', (g.step op).impl = some impl' := by
  rcases g with ⟨_ | impl⟩
  . cases h
  . cases op with
    | addNode => exact ⟨_, rfl⟩
    | removeNode node =>
      simp only [step, removeNode]
      split <;> exact ⟨_, rfl⟩
    | addEdge source target =>
      simp only [step, addEdge]
      split <;> exact ⟨_, rfl⟩
    | removeEdge source target =>
      simp only [step, removeEdge]
      split <;> exact ⟨_, rfl⟩
    | replaceEdge src dst newFrom newTo =>
      simp only [step, replaceEdge]
      split <;> exact ⟨_, rfl⟩
    | createGroup nodes => exact ⟨_, rfl⟩
    | deleteGroup group =>
      simp only [step, deleteGroup]
      split <;> exact ⟨_, rfl⟩
    | setGroupExpanded group expanded =>
      simp only [step, setGroupExpanded]
      split <;> exact ⟨_, rfl⟩
    | clear => exact ⟨_, rfl⟩

theorem exists_impl_run (ops : List Op) {g : Graph} {impl : Impl} (h : g.impl = some impl)
    : ∃ impl', Machine.run step g ops = ⟨some impl'⟩ := by
  induction ops generalizing g impl with
  | nil => exact ⟨impl, congrArg Graph.mk h⟩
  | cons op ops ih =>
    rcases exists_impl_step h op with ⟨impl', h'⟩
    apply ih h'

theorem not_joinedThroughMissing {g : Graph} (h : g.EdgesExist) (source target : Int)
    : ¬g.JoinedThroughMissing source target := by
  intro ⟨_, hsource, htarget, hpath, hnot⟩
  apply hnot
  refine ⟨hsource, htarget, ?_⟩
  refine Relation.ReflTransGen.mono ?_ _ _ hpath
  intro a b hstep
  exact ⟨hstep.left, h.edges (a, b) hstep.left⟩

theorem decidesReachability_run_iff (ops : List Op) (source target : Int)
    : (Machine.run step empty ops).DecidesReachability source target
        ↔ (source = target → (Machine.run step empty ops).nodeExists source = true)
          ∧ ¬(Machine.run step empty ops).JoinedThroughMissing source target := by
  rcases exists_impl_run ops (show empty.impl = some {} from rfl) with ⟨impl, himpl⟩
  rw [himpl]
  apply decidesReachability_some_iff

/--
The search always ends and stays within `visited`. Its answer is right but for two cases: a node that
does not exist has a path to itself, and nodes that no longer exist are passed through. The latter
needs an edge without an endpoint.
-/
theorem decidesReachability_iff (ops : List Op) (source target : Int)
    : ((Machine.run step empty ops).DecidesReachability source target
        ↔ (source = target → (Machine.run step empty ops).nodeExists source = true)
            ∧ ¬(Machine.run step empty ops).JoinedThroughMissing source target)
      ∧ (Machine.Guarded step KeepsEndpoints empty ops
          → ¬(Machine.run step empty ops).JoinedThroughMissing source target) := by
  constructor
  . apply decidesReachability_run_iff
  . intro hguarded
    apply not_joinedThroughMissing
    apply Machine.always_run
    apply (Machine.always_iff_guarded edgesExist_step_iff edgesExist_empty ops).mpr hguarded

def throughDeletedGroup : List Op :=
  [.addNode, .addNode, .createGroup [], .addEdge 0 2, .addEdge 2 1, .deleteGroup 2]

theorem wrong_answers
    : ¬(Machine.run step empty []).DecidesReachability 7 7
        ∧ ¬(Machine.run step empty throughDeletedGroup).DecidesReachability 0 1 := by
  constructor
  . intro h
    have hself := ((decidesReachability_run_iff [] 7 7).mp h).left rfl
    revert hself
    decide
  . intro h
    apply ((decidesReachability_run_iff throughDeletedGroup 0 1).mp h).right
    refine ⟨by decide, by decide, by decide, ?_, ?_⟩
    . apply Relation.ReflTransGen.head (b := 2)
      . decide
      . apply Relation.ReflTransGen.single
        decide
    . intro hconnected
      cases hconnected.right.right.cases_head with
      | inl heq => cases heq
      | inr hpath =>
        rcases hpath with ⟨b, ⟨hedge, _, hb⟩, _⟩
        have hmem : (0, b) ∈ [((0 : Int), (2 : Int)), (2, 1)] := hedge
        simp at hmem
        subst hmem
        revert hb
        decide

end Graph
end Idax
