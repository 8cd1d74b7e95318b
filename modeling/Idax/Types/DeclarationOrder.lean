import Idax.Types.Coverage

/-!
This module contains the question whether a struct is declared after the structs it contains. A
post-order walk breaks a cycle of types wherever it enters it, also when the type it comes back to
is contained by value.
-/

namespace Idax
namespace Types

open PostOrder

def DeclaresInOrder (til : Til) (out : List String) : Prop :=
  ∀ x y, x ∈ out → ContainsByValue til x y → til.isUdt (.named y) → Precedes out y x

def ComesThrough (til : Til) (options : TypeRenderOptions) (roots : List Tinfo) (x y : String) : Prop :=
  Through (untrimmed til options).succ x y [] ((untrimmed til options).leavesAll roots)

theorem mem_succ_of_containsByValue {til : Til} {options : TypeRenderOptions} {x y : String}
    (h : ContainsByValue til x y) : y ∈ (untrimmed til options).succ x := by
  rcases h with ⟨udt, m, hudt, hm, hname, hvalue⟩
  rw [TypeDeclarationFormatter.mem_succ]
  refine ⟨udt, m, hudt, hm, ?_, mentions_of_valueName m.type hname hvalue, not_dropped_untrimmed y⟩
  rw [accessed_untrimmed]
  rfl

theorem declaresInOrder_iff_of_visits {til : Til} {options : TypeRenderOptions} {roots : List Tinfo}
    {out : List String}
    (h : Visits (untrimmed til options).succ [] [] ((untrimmed til options).leavesAll roots) out)
    : DeclaresInOrder til out
        ↔ ∀ x y, Reaches til roots x → ContainsByValue til x y → til.isUdt (.named y)
            → ¬ComesThrough til options roots x y := by
  have hmem : ∀ x, x ∈ out ↔ Reaches til roots x := by
    intro x
    rw [TypeDeclarationFormatter.mem_iff_collects h, collects_untrimmed]
  constructor
  . intro horder x y hx hcontains hudt
    rw [ComesThrough, ← h.precedes_start_iff ((hmem x).mpr hx) (mem_succ_of_containsByValue hcontains)]
    apply horder x y ((hmem x).mpr hx) hcontains hudt
  . intro hthrough x y hx hcontains hudt
    rw [h.precedes_start_iff hx (mem_succ_of_containsByValue hcontains)]
    apply hthrough x y ((hmem x).mp hx) hcontains hudt

/--
Every struct is declared after the structs it contains exactly when the walk comes to no struct by
way of one that it contains.
-/
theorem declaresInOrder_iff (til : Til) (options : TypeRenderOptions)
    (roots : TypeDeclarationFormatter.Roots)
    : ∃ out : List String,
        (∃ bound, ∀ fuel, bound ≤ fuel →
          ((untrimmed til options).order fuel roots).map (·.map (·.name)) = some out
          ∧ ∀ ordinals, roots = .ordinals ordinals →
              (declarationsForOrdinals til fuel ordinals).map (·.map (·.name)) = some out)
        ∧ (DeclaresInOrder til out
            ↔ ∀ x y, Reaches til (roots.types til) x → ContainsByValue til x y
                → til.isUdt (.named y) → ¬ComesThrough til options (roots.types til) x y) := by
  rcases (untrimmed til options).exists_visits (roots.types til) with ⟨out, hvisits⟩
  refine ⟨out, exists_bound roots hvisits, declaresInOrder_iff_of_visits hvisits⟩

/--
`struct A { struct B *p; }` and `struct B { struct A a; }`.
-/
def backPointer : Til :=
  { types :=
      [ ("A", .udt { members := [⟨"p", .ptr (.named "B"), 0, 64, false⟩], totalSize := 8 })
      , ("B", .udt { members := [⟨"a", .named "A", 0, 64, false⟩], totalSize := 8 }) ]
    numbered := fun ordinal =>
      if ordinal = 1 then some (.named "A") else if ordinal = 2 then some (.named "B") else none
    ordinalOf := fun ti => if ti.typeName = "A" then 1 else 2
    print := fun _ name => "struct " ++ name ++ ";" }

theorem containsByValue_backPointer {x y : String} (h : ContainsByValue backPointer x y)
    : x = "B" ∧ y = "A" := by
  rcases h with ⟨udt, m, hudt, hm, hname, hvalue⟩
  simp only [Til.udtDetails?, Til.kind?, backPointer, Tinfo.typeName, List.lookup_cons,
    List.lookup_nil] at hudt
  split at hudt
  . next hkind =>
    split at hkind
    . simp only [Option.some.injEq, TypeKind.udt.injEq] at hkind hudt
      subst hkind hudt
      rw [List.mem_singleton] at hm
      subst hm
      exact absurd hvalue.symm hname
    . split at hkind
      . next hB =>
        simp only [Option.some.injEq, TypeKind.udt.injEq] at hkind hudt
        subst hkind hudt
        rw [List.mem_singleton] at hm
        subst hm
        simp only [beq_iff_eq] at hB
        apply And.intro hB hvalue.symm
      . simp at hkind
  . simp at hudt

theorem declared_before_contained
    : (∀ x, ¬Relation.TransGen (ContainsByValue backPointer) x x)
        ∧ ((untrimmed backPointer {}).orderOrdinals 8 [1]).map (·.map (·.name)) = some ["B", "A"]
        ∧ (declarationsForOrdinals backPointer 8 [1]).map (·.map (·.name)) = some ["B", "A"]
        ∧ ¬DeclaresInOrder backPointer ["B", "A"] := by
  refine ⟨?_, by decide, by decide, ?_⟩
  . intro x hcycle
    rcases Relation.TransGen.head'_iff.mp hcycle with ⟨_, hfirst, _⟩
    rcases Relation.TransGen.tail'_iff.mp hcycle with ⟨_, _, hlast⟩
    have hB := (containsByValue_backPointer hfirst).left
    have hA := (containsByValue_backPointer hlast).right
    rw [hA] at hB
    simp at hB
  . intro horder
    have hcontains : ContainsByValue backPointer "B" "A" :=
      ⟨_, _, rfl, List.mem_singleton_self _, by decide, rfl⟩
    have hprecedes := horder "B" "A" (by decide) hcontains (by decide)
    rw [show ["B", "A"] = [] ++ "B" :: ["A"] from rfl] at hprecedes
    rw [precedes_append_cons (by decide) (by decide)] at hprecedes
    simp at hprecedes

end Types
end Idax
