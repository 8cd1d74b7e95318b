import Mathlib.Data.Finset.Basic
import Idax.Types.Lemmas.Walk

/-!
The order built by the renderer is a post-order search that starts at the names mentioned in the
roots. This determines which names it contains.
-/

namespace Idax
namespace Types

theorem foldlM_roots {α σ : Type} (root : α → Option Tinfo) (walk : Tinfo → σ → Option σ)
    {step : σ → α → Option σ} (hnone : ∀ s a, root a = none → step s a = some s)
    (hsome : ∀ s a ti, root a = some ti → step s a = walk ti s) (as : List α) (s : σ)
    : as.foldlM step s = (as.filterMap root).foldlM (fun s ti => walk ti s) s := by
  rw [List.foldlM_filterMap]
  congr
  funext s a
  cases hroot : root a with
  | none => exact hnone s a hroot
  | some ti => exact hsome s a ti hroot

namespace TypeDeclarationFormatter

def Roots.types (til : Til) : Roots → List Tinfo
  | .names ns => ns.filterMap til.tinfoFromName
  | .ordinals os => os.filterMap til.tinfoFromOrdinal

variable {fmt : TypeDeclarationFormatter}

mutual

theorem mem_leaves (ti : Tinfo) (name : String)
    : name ∈ fmt.leaves ti ↔ Mentions ti name ∧ fmt.dropped name = false := by
  match ti with
  | .absent =>
    simp only [leaves, List.not_mem_nil, false_iff, not_and]
    intro h
    cases h
  | .unnamed =>
    simp only [leaves, List.not_mem_nil, false_iff, not_and]
    intro h
    cases h
  | .ptr pointed =>
    rw [leaves, mem_leaves pointed name]
    rw [show Mentions (.ptr pointed) name ↔ Mentions pointed name from
      ⟨fun h => by cases h; assumption, .ptr⟩]
  | .array element =>
    rw [leaves, mem_leaves element name]
    rw [show Mentions (.array element) name ↔ Mentions element name from
      ⟨fun h => by cases h; assumption, .array⟩]
  | .func rettype args =>
    rw [leaves, List.mem_append, mem_leaves rettype name, mem_leavesAll args name]
    constructor
    . intro h
      rcases h with ⟨h, hkept⟩ | ⟨arg, harg, h, hkept⟩
      . exact ⟨.ret h, hkept⟩
      . exact ⟨.arg harg h, hkept⟩
    . intro ⟨h, hkept⟩
      cases h with
      | ret h => exact .inl ⟨h, hkept⟩
      | arg harg h => exact .inr ⟨_, harg, h, hkept⟩
  | .named other =>
    rw [leaves]
    constructor
    . intro h
      split at h
      . simp at h
      . next hkept =>
        rw [List.mem_singleton] at h
        subst h
        simp only [Bool.or_eq_true, not_or, Bool.not_eq_true, String.isEmpty_eq_false_iff] at hkept
        exact ⟨.named hkept.left, hkept.right⟩
    . intro ⟨h, hkept⟩
      cases h with
      | named hname => simp [hname, hkept]

theorem mem_leavesAll (tis : List Tinfo) (name : String)
    : name ∈ fmt.leavesAll tis ↔ ∃ ti ∈ tis, Mentions ti name ∧ fmt.dropped name = false := by
  match tis with
  | [] => simp [leavesAll]
  | ti :: tis =>
    rw [leavesAll, List.mem_append, mem_leaves ti name, mem_leavesAll tis name]
    simp

end

theorem mem_succ {owner name : String}
    : name ∈ fmt.succ owner
        ↔ ∃ udt m, fmt.til.udtDetails? (.named owner) = some udt ∧ m ∈ udt.members
          ∧ follows (fmt.accessed udt owner) m ∧ Mentions m.type name
          ∧ fmt.dropped name = false := by
  rw [succ, mem_leavesAll, followed]
  split
  . next hnone => simp [hnone]
  . next udt hudt =>
    simp only [List.mem_map, List.mem_filter, hudt, Option.some.injEq]
    constructor
    . rintro ⟨ti, ⟨m, ⟨hm, hfollows⟩, heq⟩, h, hkept⟩
      rw [← heq] at h
      exact ⟨udt, m, rfl, hm, hfollows, h, hkept⟩
    . rintro ⟨udt', m, heq, hm, hfollows, h, hkept⟩
      subst heq
      exact ⟨m.type, ⟨m, ⟨hm, hfollows⟩, rfl⟩, h, hkept⟩

inductive Collects (fmt : TypeDeclarationFormatter) (roots : List Tinfo) : String → Prop where
  | root {t name} (ht : t ∈ roots) (h : Mentions t name) (hkept : fmt.dropped name = false)
    : Collects fmt roots name
  | member {owner name udt m} (howner : Collects fmt roots owner)
    (hudt : fmt.til.udtDetails? (.named owner) = some udt) (hm : m ∈ udt.members)
    (hfollows : follows (fmt.accessed udt owner) m) (h : Mentions m.type name)
    (hkept : fmt.dropped name = false) : Collects fmt roots name

theorem collects_iff {roots : List Tinfo} {name : String}
    : fmt.Collects roots name
        ↔ ∃ r ∈ fmt.leavesAll roots, Relation.ReflTransGen (fun a b => b ∈ fmt.succ a) r name := by
  constructor
  . intro h
    induction h with
    | root ht h hkept => exact ⟨_, (mem_leavesAll _ _).mpr ⟨_, ht, h, hkept⟩, .refl⟩
    | member _ hudt hm hfollows h hkept ih =>
      rcases ih with ⟨r, hr, hpath⟩
      exact ⟨r, hr, hpath.tail (mem_succ.mpr ⟨_, _, hudt, hm, hfollows, h, hkept⟩)⟩
  . intro ⟨r, hr, hpath⟩
    induction hpath with
    | refl =>
      rw [mem_leavesAll] at hr
      rcases hr with ⟨t, ht, h, hkept⟩
      exact .root ht h hkept
    | tail _ hstep ih =>
      rcases mem_succ.mp hstep with ⟨udt, m, hudt, hm, hfollows, h, hkept⟩
      exact .member ih hudt hm hfollows h hkept

theorem mem_keys_of_mem_succ {owner name : String} (h : name ∈ fmt.succ owner)
    : owner ∈ fmt.til.types.map Prod.fst := by
  rcases mem_succ.mp h with ⟨udt, m, hudt, _⟩
  unfold Til.udtDetails? Til.kind? at hudt
  split at hudt
  . next hlookup =>
    rcases List.lookup_eq_some_iff.mp hlookup with ⟨before, after, heq, _⟩
    rw [heq]
    simp [Tinfo.typeName]
  . simp at hudt

theorem exists_visits (fmt : TypeDeclarationFormatter) (roots : List Tinfo)
    : ∃ out, PostOrder.Visits fmt.succ [] [] (fmt.leavesAll roots) out := by
  let vertices := fmt.leavesAll roots ++ (fmt.til.types.map Prod.fst).flatMap fmt.succ
  apply PostOrder.Visits.exists_of_finite vertices.toFinset
  . intro owner _ name hname
    rw [List.mem_toFinset]
    apply List.mem_append_right
    rw [List.mem_flatMap]
    exact ⟨owner, mem_keys_of_mem_succ hname, hname⟩
  . intro name hname
    rw [List.mem_toFinset]
    apply List.mem_append_left _ hname

theorem orderNamed_eq (fuel : Nat) (ns : List String) (maxDepth : Int)
    : fmt.orderNamed fuel ns maxDepth
        = ((ns.filterMap fmt.til.tinfoFromName).foldlM
            (fun s ti => fmt.walk maxDepth fuel ti 0 s) {}).map (·.out) := by
  rw [orderNamed]
  rw [foldlM_roots fmt.til.tinfoFromName (fmt.walk maxDepth fuel · 0)]
  . rw [Option.map_eq_bind]
    rfl
  . intro s name hnone
    simp [hnone]
  . intro s name ti hsome
    simp [hsome]

theorem order_eq (fuel : Nat) (roots : Roots)
    : fmt.order fuel roots
        = ((roots.types fmt.til).foldlM (fun s ti => fmt.walk (-1) fuel ti 0 s) {}).map (·.out) := by
  cases roots with
  | names ns => apply orderNamed_eq
  | ordinals os =>
    rw [order, orderOrdinals]
    rw [foldlM_roots fmt.til.tinfoFromOrdinal (fmt.walk (-1) fuel · 0)]
    . rw [Option.map_eq_bind]
      rfl
    . intro s ordinal hnone
      simp [hnone]
    . intro s ordinal ti hsome
      simp [hsome]

def orderedTypes (out : List String) : List OrderedType :=
  out.map fun name => ⟨name, .named name⟩

theorem names_orderedTypes (out : List String)
    : (orderedTypes out).map (·.name) = out := by
  rw [orderedTypes, List.map_map]
  apply List.map_id

theorem order_of_visits {roots : Roots} {out : List String}
    (h : PostOrder.Visits fmt.succ [] [] (fmt.leavesAll (roots.types fmt.til)) out)
    : ∃ bound, ∀ fuel, bound ≤ fuel → fmt.order fuel roots = some (orderedTypes out) := by
  have hruns := runsAll_of_visits h fun _ hv => kept_of_mem_leavesAll _ _ hv
  rcases (RunsAll.of_leaves _ _ _ hruns).foldlM with ⟨bound, hfold⟩
  refine ⟨bound, ?_⟩
  intro fuel hfuel
  have hwalk := hfold fuel 0 hfuel
  rw [order_eq]
  rw [show ({} : WalkState) = stateOf [] [] from rfl]
  rw [hwalk]
  rfl

theorem mem_iff_collects {roots : List Tinfo} {out : List String}
    (h : PostOrder.Visits fmt.succ [] [] (fmt.leavesAll roots) out) (name : String)
    : name ∈ out ↔ fmt.Collects roots name := by
  rw [h.mem_iff_reachable, collects_iff]

end TypeDeclarationFormatter
end Types
end Idax
