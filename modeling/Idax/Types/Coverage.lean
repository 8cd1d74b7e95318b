import Mathlib.Data.Option.Basic
import Mathlib.Data.Option.Defs
import Idax.Types.Lemmas.Order

/-!
This module shows that the renderer, without trimming, and `declarations_for_ordinals` visit the
same names in the same order: those that can be reached from the roots, each once. Both walks
finish, whatever cycles the type library contains.
-/

namespace Idax
namespace Types

theorem foldlM_rel {α σ τ : Type} {R : σ → τ → Prop} {f : σ → α → Option σ} {g : τ → α → Option τ}
    (hstep : ∀ s t a, R s t → Option.Rel R (f s a) (g t a)) (as : List α) (s : σ) (t : τ) (h : R s t)
    : Option.Rel R (as.foldlM f s) (as.foldlM g t) := by
  induction as generalizing s t with
  | nil => apply Option.Rel.some h
  | cons a as ih =>
    rw [List.foldlM_cons, List.foldlM_cons]
    have hone := hstep s t a h
    revert hone
    cases f s a with
    | none =>
      cases g t a with
      | none => intro _; apply Option.Rel.none
      | some t' => intro hone; cases hone
    | some s' =>
      cases g t a with
      | none => intro hone; cases hone
      | some t' =>
        intro hone
        cases hone with
        | some hrel => apply ih s' t' hrel

theorem map_eq_of_rel {α σ τ : Type} {R : σ → τ → Prop} {f : σ → α} {g : τ → α} {s : Option σ}
    {t : Option τ} (h : Option.Rel R s t) (heq : ∀ s t, R s t → g t = f s) : t.map g = s.map f := by
  cases h with
  | none => rfl
  | some hrel => rw [Option.map_some, Option.map_some, heq _ _ hrel]

namespace declarationsForOrdinals

variable {til : Til} {options : TypeRenderOptions}

def declarationOf (til : Til) (item : OrderedType) : TypeDeclaration :=
  { ordinal := til.ordinalOf item.type
    name := item.name
    declaration := til.printTypeDecl item.type item.name }

structure Simulates (til : Til) (stack : List String) (s : WalkState) (t : DeclarationState)
    : Prop where
  onStack : s.onStack = stack
  seen : ∀ name, name ∈ t.seen ↔ name ∈ s.emitted ∨ name ∈ stack
  result : t.result = s.out.map (declarationOf til)

theorem Simulates.enter {stack : List String} {s : WalkState} {t : DeclarationState}
    (h : Simulates til stack s t) (name : String)
    : Simulates til (name :: stack) { s with onStack := name :: s.onStack }
        { t with seen := name :: t.seen } := by
  constructor
  . rw [h.onStack]
  . intro other
    rw [List.mem_cons, h.seen, List.mem_cons]
    tauto
  . apply h.result

theorem Simulates.leave {stack : List String} {name : String} {s : WalkState} {t : DeclarationState}
    (h : Simulates til (name :: stack) s t)
    : Simulates til stack
        { out := s.out ++ [⟨name, .named name⟩]
          emitted := s.emitted ++ [name]
          onStack := s.onStack.erase name }
        { t with result := t.result ++ [declarationOf til ⟨name, .named name⟩] } := by
  constructor
  . rw [h.onStack]
    apply List.erase_cons_head
  . intro other
    rw [h.seen, List.mem_append, List.mem_singleton, List.mem_cons]
    tauto
  . rw [h.result]
    simp

theorem walk_simulates (hoptions : options.trimUnreferenced = false) (fuel : Nat) (ti : Tinfo)
    (depth : Int) (stack : List String) (s : WalkState) (t : DeclarationState)
    (h : Simulates til stack s t)
    : Option.Rel (Simulates til stack)
        (TypeDeclarationFormatter.walk ⟨til, options⟩ (-1) fuel ti depth s) (walk til fuel ti t) := by
  induction fuel generalizing ti depth stack s t with
  | zero => apply Option.Rel.none
  | succ fuel ih =>
    cases ti with
    | absent => apply Option.Rel.some h
    | unnamed => apply Option.Rel.some h
    | ptr pointed => apply ih pointed depth stack s t h
    | array element => apply ih element depth stack s t h
    | func rettype args =>
      have := foldlM_rel (fun s t ti h => ih ti depth stack s t h) (rettype :: args) s t h
      rw [List.foldlM_cons, List.foldlM_cons] at this
      apply this
    | named name =>
      simp only [TypeDeclarationFormatter.walk, walk]
      have hseen : name ∈ t.seen ↔ name ∈ s.emitted ∨ name ∈ s.onStack := by
        rw [h.seen, h.onStack]
      simp only [hseen]
      rw [if_neg (show ¬((0 : Int) ≤ -1 ∧ (-1 : Int) < depth) by omega)]
      split
      . apply Option.Rel.some h
      . split
        . apply Option.Rel.some h
        . cases hudt : til.udtDetails? (.named name) with
          | none =>
            apply Option.Rel.some
            apply (h.enter name).leave
          | some udt =>
            have hbelow := foldlM_rel (fun s t m h => ih (Udm.type m) (depth + 1) _ s t h)
              udt.members _ _ (h.enter name)
            simp only [TypeDeclarationFormatter.accessed, TypeDeclarationFormatter.follows, hoptions,
              Bool.false_and, Bool.false_eq_true, ↓reduceIte]
            revert hbelow
            generalize List.foldlM (m := Option) _ { s with onStack := name :: s.onStack } _ = s'
            generalize List.foldlM (m := Option) _ { t with seen := name :: t.seen } _ = t'
            intro hbelow
            cases hbelow with
            | none => apply Option.Rel.none
            | some hrel => apply Option.Rel.some hrel.leave

end declarationsForOrdinals

def untrimmed (til : Til) (options : TypeRenderOptions) : TypeDeclarationFormatter :=
  { til, options := { options with trimUnreferenced := false } }

section Untrimmed

variable {til : Til} {options : TypeRenderOptions}

theorem accessed_untrimmed (udt : UdtTypeData) (name : String)
    : (untrimmed til options).accessed udt name = none := by
  simp [TypeDeclarationFormatter.accessed, untrimmed]

theorem not_dropped_untrimmed (name : String)
    : (untrimmed til options).dropped name = false := by
  unfold TypeDeclarationFormatter.dropped
  split <;> simp [untrimmed]

theorem collects_untrimmed {roots : List Tinfo} {name : String}
    : (untrimmed til options).Collects roots name ↔ Reaches til roots name := by
  constructor
  . intro h
    induction h with
    | root ht h _ => apply Reaches.root ht h
    | member _ hudt hm _ h _ ih => apply Reaches.member ih hudt hm h
  . intro h
    induction h with
    | root ht h => apply TypeDeclarationFormatter.Collects.root ht h (not_dropped_untrimmed _)
    | member _ hudt hm h ih =>
      apply TypeDeclarationFormatter.Collects.member ih hudt hm _ h (not_dropped_untrimmed _)
      rw [accessed_untrimmed]
      rfl

theorem declarationsForOrdinals_eq (til : Til) (fuel : Nat) (ordinals : List Nat)
    : declarationsForOrdinals til fuel ordinals
        = ((ordinals.filterMap til.tinfoFromOrdinal).foldlM
            (fun t ti => declarationsForOrdinals.walk til fuel ti t) {}).map (·.result) := by
  rw [declarationsForOrdinals]
  rw [foldlM_roots til.tinfoFromOrdinal (declarationsForOrdinals.walk til fuel)]
  . rw [Option.map_eq_bind]
    rfl
  . intro t ordinal hnone
    simp [hnone]
  . intro t ordinal ti hsome
    simp [hsome]

theorem declarationsForOrdinals_eq_order (til : Til) (options : TypeRenderOptions) (fuel : Nat)
    (ordinals : List Nat)
    : declarationsForOrdinals til fuel ordinals
        = ((untrimmed til options).order fuel (.ordinals ordinals)).map
            (·.map (declarationsForOrdinals.declarationOf til)) := by
  rw [declarationsForOrdinals_eq, TypeDeclarationFormatter.order_eq, Option.map_map]
  apply map_eq_of_rel (R := declarationsForOrdinals.Simulates til [])
  . apply foldlM_rel
    . intro s t ti h
      apply declarationsForOrdinals.walk_simulates rfl fuel ti 0 [] s t h
    . constructor <;> simp
  . intro s t h
    apply h.result

theorem exists_bound (roots : TypeDeclarationFormatter.Roots) {out : List String}
    (h : PostOrder.Visits (untrimmed til options).succ [] []
      ((untrimmed til options).leavesAll (roots.types til)) out)
    : ∃ bound, ∀ fuel, bound ≤ fuel →
        ((untrimmed til options).order fuel roots).map (·.map (·.name)) = some out
        ∧ ∀ ordinals, roots = .ordinals ordinals →
            (declarationsForOrdinals til fuel ordinals).map (·.map (·.name)) = some out := by
  rcases TypeDeclarationFormatter.order_of_visits h with ⟨bound, horder⟩
  refine ⟨bound, ?_⟩
  intro fuel hfuel
  have horder := horder fuel hfuel
  constructor
  . rw [horder, Option.map_some, TypeDeclarationFormatter.names_orderedTypes]
  . intro ordinals heq
    subst heq
    rw [declarationsForOrdinals_eq_order til options, horder]
    rw [Option.map_some, Option.map_some, List.map_map]
    rw [← TypeDeclarationFormatter.names_orderedTypes out]
    simp [declarationsForOrdinals.declarationOf, TypeDeclarationFormatter.orderedTypes]

/--
Both walks finish, and list the names reachable from the ordinals, in the same order and once each.
-/
theorem exists_walk_order (til : Til) (options : TypeRenderOptions) (ordinals : List Nat)
    : ∃ out : List String,
        (∃ bound, ∀ fuel, bound ≤ fuel →
          ((untrimmed til options).orderOrdinals fuel ordinals).map (·.map (·.name)) = some out
          ∧ (declarationsForOrdinals til fuel ordinals).map (·.map (·.name)) = some out)
        ∧ out.Nodup
        ∧ ∀ name, name ∈ out ↔ Reaches til (ordinals.filterMap til.tinfoFromOrdinal) name := by
  rcases (untrimmed til options).exists_visits (ordinals.filterMap til.tinfoFromOrdinal)
    with ⟨out, hvisits⟩
  refine ⟨out, ?_, hvisits.nodup_start, ?_⟩
  . rcases exists_bound (.ordinals ordinals) hvisits with ⟨bound, hwalks⟩
    refine ⟨bound, ?_⟩
    intro fuel hfuel
    have ⟨horder, hdeclarations⟩ := hwalks fuel hfuel
    apply And.intro horder (hdeclarations ordinals rfl)
  . intro name
    rw [TypeDeclarationFormatter.mem_iff_collects hvisits, collects_untrimmed]

end Untrimmed

end Types
end Idax
