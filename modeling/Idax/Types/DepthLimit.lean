import Idax.Types.Coverage
import Idax.Types.Lemmas.Limited

/-!
This module contains the question which types `render_named_declarations` emits when it is given a
depth limit: those within the limit, unless the walk comes to one of them on a detour, at the limit,
and leaves out the members that a shorter way would have reached.
-/

namespace Idax
namespace Types

inductive Chain (til : Til) (roots : List Tinfo) : Nat → String → Prop where
  | root {t name} (ht : t ∈ roots) (h : Mentions t name) : Chain til roots 0 name
  | member {n owner name udt m} (howner : Chain til roots n owner)
    (hudt : til.udtDetails? (.named owner) = some udt) (hm : m ∈ udt.members)
    (h : Mentions m.type name) : Chain til roots (n + 1) name

def WithinDepth (til : Til) (roots : List Tinfo) (d : Nat) (name : String) : Prop :=
  ∃ n, n ≤ d ∧ Chain til roots n name

def MemberType (til : Til) (owner name : String) : Prop :=
  ∃ udt m, til.udtDetails? (.named owner) = some udt ∧ m ∈ udt.members ∧ Mentions m.type name

def FirstReached (til : Til) (options : TypeRenderOptions) (roots : List Tinfo) (d n : Nat)
    (name : String) : Prop :=
  ∃ left, n + left = d ∧ (name, left) ∈ LimitedSearch.entries (untrimmed til options).succ d
    ((untrimmed til options).leavesAll roots)

/--
A type that is first reached at the limit, but is nearer to some root, mentions in its members only
types that the roots mention or the members of a type first reached above the limit.
-/
def DetoursHarmless (til : Til) (options : TypeRenderOptions) (roots : List Tinfo) (d : Nat) : Prop :=
  ∀ name n, FirstReached til options roots d d name → n < d → Chain til roots n name
    → ∀ other, MemberType til name other
      → (∃ t ∈ roots, Mentions t other)
        ∨ ∃ owner k, k < d ∧ FirstReached til options roots d k owner ∧ MemberType til owner other

variable {til : Til} {options : TypeRenderOptions} {roots : List Tinfo} {d : Nat}

theorem mem_leavesAll_untrimmed {name : String}
    : name ∈ (untrimmed til options).leavesAll roots ↔ ∃ t ∈ roots, Mentions t name := by
  rw [TypeDeclarationFormatter.mem_leavesAll]
  simp only [not_dropped_untrimmed, and_true]

theorem mem_succ_untrimmed {owner name : String}
    : name ∈ (untrimmed til options).succ owner ↔ MemberType til owner name := by
  rw [TypeDeclarationFormatter.mem_succ]
  simp only [not_dropped_untrimmed, accessed_untrimmed, TypeDeclarationFormatter.follows, true_and,
    and_true]
  rfl

theorem chain_iff {n : Nat} {name : String}
    : LimitedSearch.Chain (untrimmed til options).succ ((untrimmed til options).leavesAll roots) n name
        ↔ Chain til roots n name := by
  constructor
  . intro h
    induction h with
    | root hroot =>
      rcases mem_leavesAll_untrimmed.mp hroot with ⟨t, ht, h⟩
      apply Chain.root ht h
    | step _ hsucc ih =>
      rcases mem_succ_untrimmed.mp hsucc with ⟨udt, m, hudt, hm, h⟩
      apply Chain.member ih hudt hm h
  . intro h
    induction h with
    | root ht h => apply LimitedSearch.Chain.root (mem_leavesAll_untrimmed.mpr ⟨_, ht, h⟩)
    | member _ hudt hm h ih =>
      apply LimitedSearch.Chain.step ih (mem_succ_untrimmed.mpr ⟨_, _, hudt, hm, h⟩)

theorem within_iff {name : String}
    : LimitedSearch.Within (untrimmed til options).succ d ((untrimmed til options).leavesAll roots) name
        ↔ WithinDepth til roots d name := by
  simp only [LimitedSearch.Within, WithinDepth, chain_iff]

theorem firstReached_limit_iff {name : String}
    : FirstReached til options roots d d name
        ↔ (name, 0) ∈ LimitedSearch.entries (untrimmed til options).succ d
            ((untrimmed til options).leavesAll roots) := by
  constructor
  . intro ⟨left, hleft, hentry⟩
    rw [show left = 0 by omega] at hentry
    apply hentry
  . intro hentry
    exact ⟨0, rfl, hentry⟩

theorem exists_firstReached_iff {P : String → Prop}
    : (∃ owner k, k < d ∧ FirstReached til options roots d k owner ∧ P owner)
        ↔ ∃ owner more, (owner, more + 1) ∈ LimitedSearch.entries (untrimmed til options).succ d
            ((untrimmed til options).leavesAll roots) ∧ P owner := by
  constructor
  . intro ⟨owner, k, hk, ⟨left, hleft, hentry⟩, howner⟩
    rw [show left = left - 1 + 1 by omega] at hentry
    exact ⟨owner, left - 1, hentry, howner⟩
  . intro ⟨owner, more, hentry, howner⟩
    have hchain := LimitedSearch.chain_of_mem (Nat.zero_add _) (fun r hr => .root hr) (by simp)
      owner (more + 1) hentry
    exact ⟨owner, d - (more + 1), by omega, ⟨more + 1, by omega, hentry⟩, howner⟩

theorem detoursHarmless_iff
    : LimitedSearch.DetoursHarmless (untrimmed til options).succ d
          ((untrimmed til options).leavesAll roots)
        ↔ DetoursHarmless til options roots d := by
  simp only [LimitedSearch.DetoursHarmless, DetoursHarmless, firstReached_limit_iff,
    exists_firstReached_iff, chain_iff, mem_succ_untrimmed, mem_leavesAll_untrimmed]

/--
Rendering to a depth finishes, emits only types within the depth, and emits all of them exactly when
its detours are harmless.
-/
theorem orderNamed_exact_iff (til : Til) (options : TypeRenderOptions) (ns : List String) (d : Nat)
    : ∃ out : List String,
        (∃ bound, ∀ fuel, bound ≤ fuel →
          ((untrimmed til options).orderNamed fuel ns d).map (·.map (·.name)) = some out)
        ∧ (∀ name ∈ out, WithinDepth til (ns.filterMap til.tinfoFromName) d name)
        ∧ ((∀ name, name ∈ out ↔ WithinDepth til (ns.filterMap til.tinfoFromName) d name)
            ↔ DetoursHarmless til options (ns.filterMap til.tinfoFromName) d) := by
  rcases (untrimmed til options).exists_orderNamed ns d with ⟨out, ⟨bound, hwalk⟩, hmem⟩
  refine ⟨out, ⟨bound, ?_⟩, ?_, ?_⟩
  . intro fuel hfuel
    rw [hwalk fuel hfuel, Option.map_some, TypeDeclarationFormatter.names_orderedTypes]
  . intro name hname
    apply within_iff.mp (LimitedSearch.within_of_entered ((hmem name).mp hname))
  . rw [← detoursHarmless_iff, ← LimitedSearch.entered_iff_within]
    simp only [hmem, within_iff]
    rfl

/--
`struct A { struct B b; }`, `struct B { struct C c; }`, `struct C { }` and a struct `R` with the
given members.
-/
def detour (members : List Udm) : Til :=
  { types :=
      [ ("R", .udt { members, totalSize := 8 })
      , ("A", .udt { members := [⟨"b", .named "B", 0, 32, false⟩], totalSize := 4 })
      , ("B", .udt { members := [⟨"c", .named "C", 0, 32, false⟩], totalSize := 4 })
      , ("C", .udt { members := [], totalSize := 4 }) ]
    numbered := fun _ => none
    ordinalOf := fun _ => 0
    print := fun _ name => "struct " ++ name ++ ";" }

def memberA : Udm := ⟨"a", .named "A", 0, 32, false⟩

def memberB : Udm := ⟨"b", .named "B", 32, 32, false⟩

theorem not_orderNamed_exact_detour
    : ((untrimmed (detour [memberA, memberB]) {}).orderNamed 8 ["R"] 2).map (·.map (·.name))
          = some ["B", "A", "R"]
        ∧ WithinDepth (detour [memberA, memberB])
            (["R"].filterMap (detour [memberA, memberB]).tinfoFromName) 2 "C"
        ∧ "C" ∉ ["B", "A", "R"]
        ∧ ((untrimmed (detour [memberB, memberA]) {}).orderNamed 8 ["R"] 2).map (·.map (·.name))
          = some ["C", "B", "A", "R"] := by
  refine ⟨by decide, ?_, by decide, by decide⟩
  have hR : Chain (detour [memberA, memberB])
      (["R"].filterMap (detour [memberA, memberB]).tinfoFromName) 0 "R" :=
    .root (List.mem_singleton_self (Tinfo.named "R")) (.named (by decide))
  have hB := Chain.member (m := memberB) hR rfl (by simp [memberB]) (.named (by decide))
  have hC := hB.member rfl (List.mem_singleton_self _) (.named (by decide))
  exact ⟨2, Nat.le_refl 2, hC⟩

end Types
end Idax
