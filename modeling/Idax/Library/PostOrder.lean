import Mathlib.Data.Finset.Card
import Mathlib.Logic.Relation

/-!
Depth-first search in post order, on a graph given by the list of successors of each vertex. A search
is described by the vertices on its stack and by those it has finished, in order; a vertex on either
list is not entered again. What a search finishes and in which order is then characterized by paths
of the graph alone.
-/

namespace PostOrder

variable {α : Type u} {succ : α → List α}

/--
With `stack` open and `out` finished, visiting `vs` one after another finishes `out'`.
-/
inductive Visits (succ : α → List α) : List α → List α → List α → List α → Prop where
  | nil {stack out} : Visits succ stack out [] out
  | skip {stack out v vs out'} (hseen : v ∈ stack ∨ v ∈ out) (hrest : Visits succ stack out vs out')
    : Visits succ stack out (v :: vs) out'
  | enter {stack out v vs mid out'} (hstack : v ∉ stack) (hout : v ∉ out)
    (hbelow : Visits succ (v :: stack) out (succ v) mid)
    (hrest : Visits succ stack (mid ++ [v]) vs out')
    : Visits succ stack out (v :: vs) out'

namespace Visits

theorem exists_append {stack out vs out' : List α} (h : Visits succ stack out vs out')
    : ∃ new, out' = out ++ new := by
  induction h with
  | nil => exact ⟨[], by simp⟩
  | skip _ _ ih => exact ih
  | @enter _ _ v _ _ _ _ _ _ _ ih1 ih2 =>
    rcases ih1 with ⟨new1, rfl⟩
    rcases ih2 with ⟨new2, rfl⟩
    exact ⟨new1 ++ [v] ++ new2, by simp⟩

theorem mem_of_mem {stack out vs out' : List α} (h : Visits succ stack out vs out') {x : α}
    (hx : x ∈ out) : x ∈ out' := by
  rcases h.exists_append with ⟨new, rfl⟩
  apply List.mem_append_left new hx

theorem not_mem_stack {stack out vs out' : List α} (h : Visits succ stack out vs out')
    : ∀ x ∈ out', x ∈ out ∨ x ∉ stack := by
  induction h with
  | nil => exact fun x hx => .inl hx
  | skip _ _ ih => exact ih
  | @enter _ _ v _ _ _ hstack _ _ _ ih1 ih2 =>
    intro x hx
    cases ih2 x hx with
    | inr hnew => exact .inr hnew
    | inl hold =>
      rw [List.mem_append, List.mem_singleton] at hold
      cases hold with
      | inr heq =>
        rw [heq]
        exact .inr hstack
      | inl hmid =>
        cases ih1 x hmid with
        | inl hout => exact .inl hout
        | inr hnew => exact .inr fun hmem => hnew (List.mem_cons_of_mem v hmem)

theorem not_mem_of_enter {stack out mid ws : List α} {v : α} (hout : v ∉ out)
    (h : Visits succ (v :: stack) out ws mid) : v ∉ mid := by
  intro hmem
  cases h.not_mem_stack v hmem with
  | inl hold => exact hout hold
  | inr hnew => exact hnew List.mem_cons_self

theorem nodup {stack out vs out' : List α} (h : Visits succ stack out vs out') (hnodup : out.Nodup)
    : out'.Nodup := by
  induction h with
  | nil => exact hnodup
  | skip _ _ ih => exact ih hnodup
  | @enter _ _ v _ _ _ hstack hout hbelow _ ih1 ih2 =>
    apply ih2
    rw [List.nodup_append]
    refine ⟨ih1 hnodup, List.nodup_singleton v, ?_⟩
    intro x hx y hy heq
    rw [List.mem_singleton] at hy
    rw [heq, hy] at hx
    apply not_mem_of_enter hout hbelow hx

theorem closed {stack out vs out' : List α} (h : Visits succ stack out vs out')
    : (∀ v ∈ vs, v ∈ stack ∨ v ∈ out')
        ∧ ∀ x ∈ out', x ∈ out ∨ ∀ y ∈ succ x, y ∈ stack ∨ y ∈ out' := by
  induction h with
  | nil =>
    constructor
    . simp
    . exact fun x hx => .inl hx
  | skip hseen hrest ih =>
    constructor
    . intro v hv
      rw [List.mem_cons] at hv
      cases hv with
      | inr hv => exact ih.left v hv
      | inl heq =>
        rw [heq]
        cases hseen with
        | inl hstack => exact .inl hstack
        | inr hout => exact .inr (hrest.mem_of_mem hout)
    . apply ih.right
  | @enter stack out v vs mid out' _ _ _ hrest ih1 ih2 =>
    have hkeep : ∀ y ∈ mid ++ [v], y ∈ out' := fun y hy => hrest.mem_of_mem hy
    have hv : v ∈ out' := hkeep v (by simp)
    constructor
    . intro w hw
      rw [List.mem_cons] at hw
      cases hw with
      | inl heq =>
        rw [heq]
        exact .inr hv
      | inr hw => exact ih2.left w hw
    . intro x hx
      have hopen : ∀ y, y ∈ v :: stack ∨ y ∈ mid → y ∈ stack ∨ y ∈ out' := by
        intro y hy
        rw [List.mem_cons] at hy
        rcases hy with (rfl | hstack) | hmid
        . exact .inr hv
        . exact .inl hstack
        . exact .inr (hkeep y (List.mem_append_left [v] hmid))
      cases ih2.right x hx with
      | inr hnew => exact .inr hnew
      | inl hold =>
        rw [List.mem_append, List.mem_singleton] at hold
        cases hold with
        | inr heq =>
          rw [heq]
          exact .inr fun y hy => hopen y (ih1.left y hy)
        | inl hmid =>
          cases ih1.right x hmid with
          | inl hout => exact .inl hout
          | inr hsucc => exact .inr fun y hy => hopen y (hsucc y hy)

end Visits

def Leads (succ : α → List α) (avoid : List α) (v x : α) : Prop :=
  v ∉ avoid ∧ Relation.ReflTransGen (fun a b => b ∈ succ a ∧ b ∉ avoid) v x

namespace Leads

theorem refl {avoid : List α} {v : α} (hv : v ∉ avoid) : Leads succ avoid v v :=
  ⟨hv, .refl⟩

theorem head {avoid : List α} {v w x : α} (hv : v ∉ avoid) (hw : w ∈ succ v)
    (h : Leads succ avoid w x) : Leads succ avoid v x :=
  ⟨hv, .head ⟨hw, h.left⟩ h.right⟩

theorem mono {avoid avoid' : List α} {v x : α} (hsub : ∀ a ∈ avoid', a ∈ avoid)
    (h : Leads succ avoid v x) : Leads succ avoid' v x := by
  constructor
  . exact fun hmem => h.left (hsub v hmem)
  . refine Relation.ReflTransGen.mono ?_ v x h.right
    intro a b ⟨hb, hfree⟩
    exact ⟨hb, fun hmem => hfree (hsub b hmem)⟩

theorem iff_of_closed {stack out : List α} {v x : α}
    (hclosed : ∀ a ∈ out, ∀ b ∈ succ a, b ∈ stack ∨ b ∈ out) (hx : x ∉ out)
    : Leads succ stack v x ↔ Leads succ (stack ++ out) v x := by
  constructor
  . intro ⟨hv, hpath⟩
    induction hpath using Relation.ReflTransGen.head_induction_on with
    | refl => exact refl (by simp [hv, hx])
    | @head a c hstep _ ih =>
      have hrest := ih hstep.right
      have hc : c ∉ stack ∧ c ∉ out := by simpa using hrest.left
      apply head _ hstep.left hrest
      rw [List.mem_append]
      intro hmem
      cases hmem with
      | inl hstack => exact hv hstack
      | inr hout =>
        cases hclosed a hout c hstep.left with
        | inl hstack => exact hc.left hstack
        | inr hout => exact hc.right hout
  . apply mono
    intro a ha
    apply List.mem_append_left out ha

end Leads

theorem Visits.mem_iff {stack out vs out' : List α} (h : Visits succ stack out vs out') (x : α)
    : x ∈ out' ↔ x ∈ out ∨ ∃ v ∈ vs, Leads succ (stack ++ out) v x := by
  constructor
  . induction h with
    | nil => exact fun hx => .inl hx
    | skip _ _ ih =>
      intro hx
      rcases ih hx with hout | ⟨v, hv, hleads⟩
      . exact .inl hout
      . exact .inr ⟨v, List.mem_cons_of_mem _ hv, hleads⟩
    | @enter stack out v vs mid out' hstack hout hbelow _ ih1 ih2 =>
      have hv : v ∉ stack ++ out := by simp [hstack, hout]
      intro hx
      rcases ih2 hx with hold | ⟨w, hw, hleads⟩
      . rw [List.mem_append, List.mem_singleton] at hold
        cases hold with
        | inr heq =>
          rw [heq]
          exact .inr ⟨v, List.mem_cons_self, .refl hv⟩
        | inl hmid =>
          rcases ih1 hmid with hout | ⟨w, hw, hleads⟩
          . exact .inl hout
          . right
            refine ⟨v, List.mem_cons_self, .head hv hw (hleads.mono ?_)⟩
            exact fun a ha => List.mem_cons_of_mem v ha
      . right
        refine ⟨w, List.mem_cons_of_mem v hw, hleads.mono ?_⟩
        intro a ha
        rw [List.mem_append] at ha ⊢
        cases ha with
        | inl ha => exact .inl ha
        | inr ha => exact .inr (List.mem_append_left [v] (hbelow.mem_of_mem ha))
  . intro hx
    rcases hx with hout | ⟨v, hv, hfree, hpath⟩
    . apply h.mem_of_mem hout
    . have ⟨hasked, hclosed⟩ := h.closed
      -- the path stays among the vertices finished since the start
      have hnew : x ∈ out' ∧ x ∉ stack ++ out := by
        induction hpath with
        | refl =>
          cases hasked v hv with
          | inl hstack => exact absurd (List.mem_append_left out hstack) hfree
          | inr hout => exact ⟨hout, hfree⟩
        | @tail a b _ hstep ih =>
          refine ⟨?_, hstep.right⟩
          cases hclosed a ih.left with
          | inl hout => exact absurd (List.mem_append_right stack hout) ih.right
          | inr hsucc =>
            cases hsucc b hstep.left with
            | inl hstack => exact absurd (List.mem_append_left out hstack) hstep.right
            | inr hout => exact hout
      apply hnew.left

def Precedes (l : List α) (y x : α) : Prop :=
  ∃ before after, l = before ++ x :: after ∧ y ∈ before

/--
The search for `x`, started at `vs` with `avoid` on the stack, goes through `y`: of the vertices of
`vs` the first that leads to `x` is taken, and is `y`, or its successors are searched next.
-/
inductive Through (succ : α → List α) (x y : α) : List α → List α → Prop where
  | later {avoid v vs} (hv : ¬Leads succ avoid v x) (h : Through succ x y avoid vs)
    : Through succ x y avoid (v :: vs)
  | here {avoid vs} (hy : Leads succ avoid y x) : Through succ x y avoid (y :: vs)
  | inside {avoid v vs} (hv : Leads succ avoid v x) (hne : v ≠ x)
    (h : Through succ x y (v :: avoid) (succ v)) : Through succ x y avoid (v :: vs)

theorem through_cons_of_not_leads {x y v : α} {avoid vs : List α} (hv : ¬Leads succ avoid v x)
    : Through succ x y avoid (v :: vs) ↔ Through succ x y avoid vs := by
  constructor
  . intro h
    cases h with
    | later _ h => exact h
    | here hy => exact absurd hy hv
    | inside hleads => exact absurd hleads hv
  . exact .later hv

theorem through_cons_of_leads {x y v : α} {avoid vs : List α} (hv : Leads succ avoid v x)
    (hne : v ≠ x)
    : Through succ x y avoid (v :: vs) ↔ y = v ∨ Through succ x y (v :: avoid) (succ v) := by
  constructor
  . intro h
    cases h with
    | later hnot => exact absurd hv hnot
    | here => exact .inl rfl
    | inside _ _ h => exact .inr h
  . intro h
    cases h with
    | inl heq =>
      rw [heq]
      exact .here hv
    | inr h => exact .inside hv hne h

theorem through_cons_self {x y : α} {avoid vs : List α} (hx : x ∉ avoid)
    : Through succ x y avoid (x :: vs) ↔ y = x := by
  constructor
  . intro h
    cases h with
    | later hnot => exact absurd (.refl hx) hnot
    | here => rfl
    | inside _ hne => exact absurd rfl hne
  . intro heq
    rw [heq]
    exact .here (.refl hx)

theorem precedes_append_cons {l new : List α} {y x : α} (hx : x ∉ l) (hnew : x ∉ new)
    : Precedes (l ++ x :: new) y x ↔ y ∈ l := by
  constructor
  . intro ⟨before, after, heq, hy⟩
    rw [List.append_cons_inj_of_notMem hx hnew] at heq
    rw [heq.left]
    apply hy
  . intro hy
    exact ⟨l, new, rfl, hy⟩

theorem precedes_append_of_mem {l new : List α} {y x : α} (hx : x ∈ l) (hnodup : (l ++ new).Nodup)
    : Precedes (l ++ new) y x ↔ Precedes l y x := by
  rcases List.append_of_mem hx with ⟨before, after, rfl⟩
  simp only [List.append_assoc, List.cons_append, List.nodup_append, List.nodup_cons] at hnodup
  have hbefore : x ∉ before := by
    intro hmem
    apply hnodup.right.right x hmem x List.mem_cons_self rfl
  have hafter : x ∉ after ++ new := hnodup.right.left.left
  rw [List.append_assoc, List.cons_append]
  rw [precedes_append_cons hbefore hafter]
  rw [precedes_append_cons hbefore (fun hmem => hafter (List.mem_append_left new hmem))]

/--
A successor `y` of a vertex `x` fails to be finished before `x` exactly when the search for `x` has
gone through `y`, so that `y` is still open.
-/
theorem Visits.precedes_iff {stack out vs out' : List α} (h : Visits succ stack out vs out')
    (hclosed : ∀ a ∈ out, ∀ b ∈ succ a, b ∈ stack ∨ b ∈ out) (hnodup : out.Nodup)
    (hdisjoint : ∀ a ∈ out, a ∉ stack) {x y : α} (hx : x ∈ out') (hnew : x ∉ out) (hy : y ∈ succ x)
    : Precedes out' y x ↔ ¬(y ∈ stack ∨ Through succ x y stack vs) := by
  induction h with
  | nil => exact absurd hx hnew
  | @skip stack out v vs out' hseen hrest ih =>
    rw [ih hclosed hnodup hdisjoint hx hnew]
    have hv : ¬Leads succ stack v x := by
      rw [Leads.iff_of_closed hclosed hnew]
      intro hleads
      apply hleads.left (by simpa using hseen)
    rw [through_cons_of_not_leads hv]
  | @enter stack out v vs mid out' hstack hout hbelow hrest ih1 ih2 =>
    have hvisit : Visits succ stack out [v] (mid ++ [v]) := .enter hstack hout hbelow .nil
    have hclosed' : ∀ a ∈ mid ++ [v], ∀ b ∈ succ a, b ∈ stack ∨ b ∈ mid ++ [v] := by
      intro a ha b hb
      cases hvisit.closed.right a ha with
      | inr hsucc => exact hsucc b hb
      | inl hold =>
        cases hclosed a hold b hb with
        | inl hopen => exact .inl hopen
        | inr hdone => exact .inr (hvisit.mem_of_mem hdone)
    have hdisjoint' : ∀ a ∈ mid ++ [v], a ∉ stack := by
      intro a ha
      cases hvisit.not_mem_stack a ha with
      | inl hold => exact hdisjoint a hold
      | inr hfresh => exact hfresh
    have hnodup' := hvisit.nodup hnodup
    by_cases hmid : x ∈ mid ++ [v]
    . rcases hrest.exists_append with ⟨new, rfl⟩
      rw [precedes_append_of_mem hmid (hrest.nodup hnodup')]
      rw [List.mem_append, List.mem_singleton] at hmid
      cases hmid with
      | inl hmid =>
        have hne : v ≠ x := by
          intro heq
          rw [← heq] at hmid
          apply not_mem_of_enter hout hbelow hmid
        have hleads : Leads succ stack v x := by
          rcases (hbelow.mem_iff x).mp hmid with hold | ⟨w, hw, hleads⟩
          . exact absurd hold hnew
          . apply Leads.head hstack hw
            apply hleads.mono
            intro a ha
            apply List.mem_append_left out (List.mem_cons_of_mem v ha)
        have hclosed1 : ∀ a ∈ out, ∀ b ∈ succ a, b ∈ v :: stack ∨ b ∈ out := by
          intro a ha b hb
          cases hclosed a ha b hb with
          | inl hopen => exact .inl (List.mem_cons_of_mem v hopen)
          | inr hdone => exact .inr hdone
        have hdisjoint1 : ∀ a ∈ out, a ∉ v :: stack := by
          intro a ha hmem
          rw [List.mem_cons] at hmem
          cases hmem with
          | inl heq =>
            rw [heq] at ha
            apply hout ha
          | inr hopen => exact hdisjoint a ha hopen
        rw [precedes_append_of_mem hmid hnodup']
        rw [ih1 hclosed1 hnodup hdisjoint1 hmid hnew]
        rw [through_cons_of_leads hleads hne]
        rw [List.mem_cons]
        tauto
      | inr heq =>
        subst heq
        rw [precedes_append_cons (not_mem_of_enter hout hbelow) (by simp)]
        rw [through_cons_self hstack]
        have hopen := hbelow.closed.left y hy
        rw [List.mem_cons] at hopen
        constructor
        . intro hdone hor
          have hfresh := hdisjoint' y (List.mem_append_left [x] hdone)
          cases hor with
          | inl hmem => exact hfresh hmem
          | inr heq =>
            rw [heq] at hdone
            apply not_mem_of_enter hout hbelow hdone
        . intro hnot
          tauto
    . have hleads : ¬Leads succ stack v x := by
        rw [Leads.iff_of_closed hclosed hnew]
        intro hleads
        apply hmid ((hvisit.mem_iff x).mpr (.inr ⟨v, List.mem_cons_self, hleads⟩))
      rw [ih2 hclosed' hnodup' hdisjoint' hx hmid]
      rw [through_cons_of_not_leads hleads]

namespace Visits

def fresh [DecidableEq α] (vertices : Finset α) (stack out : List α) : Finset α :=
  vertices.filter fun v => v ∉ stack ∧ v ∉ out

theorem card_fresh_lt [DecidableEq α] {vertices : Finset α} {stack out stack' out' : List α} {v : α}
    (hv : v ∈ vertices) (hstack : v ∉ stack) (hout : v ∉ out) (hsub : ∀ a ∈ out, a ∈ out')
    (hsub' : ∀ a ∈ stack, a ∈ stack') (hseen : v ∈ stack' ∨ v ∈ out')
    : (fresh vertices stack' out').card < (fresh vertices stack out).card := by
  apply Finset.card_lt_card
  rw [Finset.ssubset_iff_of_subset]
  . refine ⟨v, ?_, ?_⟩
    . simp [fresh, hv, hstack, hout]
    . simp only [fresh, Finset.mem_filter]
      tauto
  . intro a ha
    simp only [fresh, Finset.mem_filter] at ha ⊢
    exact ⟨ha.left, fun h => ha.right.left (hsub' a h), fun h => ha.right.right (hsub a h)⟩

theorem exists_of_finite [DecidableEq α] (vertices : Finset α)
    (hsucc : ∀ v ∈ vertices, ∀ w ∈ succ v, w ∈ vertices) (stack out vs : List α)
    (hvs : ∀ v ∈ vs, v ∈ vertices) : ∃ out', Visits succ stack out vs out' := by
  generalize hn : (fresh vertices stack out).card = n
  induction n using Nat.strong_induction_on generalizing stack out vs with
  | h n ih =>
    induction vs with
    | nil => exact ⟨out, .nil⟩
    | cons v vs ihvs =>
      have hv := hvs v List.mem_cons_self
      have hrest := fun w hw => hvs w (List.mem_cons_of_mem v hw)
      by_cases hseen : v ∈ stack ∨ v ∈ out
      . rcases ihvs hrest with ⟨out', h⟩
        exact ⟨out', .skip hseen h⟩
      . rw [not_or] at hseen
        have hbelow := card_fresh_lt hv hseen.left hseen.right (fun a ha => ha)
          (fun a ha => List.mem_cons_of_mem v ha) (.inl List.mem_cons_self)
        rcases ih _ (hn ▸ hbelow) (v :: stack) out (succ v) (hsucc v hv) rfl with ⟨mid, hmid⟩
        have hafter := card_fresh_lt hv hseen.left hseen.right
          (fun a ha => List.mem_append_left [v] (hmid.mem_of_mem ha)) (fun a ha => ha)
          (.inr (List.mem_append_right mid List.mem_cons_self))
        rcases ih _ (hn ▸ hafter) stack (mid ++ [v]) vs hrest rfl with ⟨out', hout'⟩
        exact ⟨out', .enter hseen.left hseen.right hmid hout'⟩

section Start

variable {roots out : List α}

theorem mem_iff_reachable (h : Visits succ [] [] roots out) (x : α)
    : x ∈ out ↔ ∃ r ∈ roots, Relation.ReflTransGen (fun a b => b ∈ succ a) r x := by
  rw [h.mem_iff]
  simp [Leads]

theorem nodup_start (h : Visits succ [] [] roots out) : out.Nodup :=
  h.nodup List.nodup_nil

theorem precedes_start_iff (h : Visits succ [] [] roots out) {x y : α} (hx : x ∈ out)
    (hy : y ∈ succ x) : Precedes out y x ↔ ¬Through succ x y [] roots := by
  rw [h.precedes_iff (by simp) List.nodup_nil (by simp) hx (by simp) hy]
  simp

end Start

end Visits

end PostOrder
