import Mathlib.Algebra.Group.Nat.Defs
import Mathlib.Data.List.Basic
import Mathlib.Data.List.Nodup

/-!
Depth-first search to a limited depth, on a graph given by the list of successors of each vertex. No
vertex is entered twice, and the successors of a vertex entered at the limit are not looked at. The
search may come to a vertex on a detour first, so it need not enter all vertices within the limit;
this module says when it does.
-/

namespace LimitedSearch

variable {α : Type u} {succ : α → List α}

inductive Chain (succ : α → List α) (roots : List α) : Nat → α → Prop where
  | root {v} (h : v ∈ roots) : Chain succ roots 0 v
  | step {n v w} (h : Chain succ roots n v) (hw : w ∈ succ v) : Chain succ roots (n + 1) w

inductive LeadsTo (succ : α → List α) (cut : α → Prop) (roots : List α) : α → Prop where
  | root {v} (h : v ∈ roots) : LeadsTo succ cut roots v
  | step {v w} (h : LeadsTo succ cut roots v) (hopen : ¬cut v) (hw : w ∈ succ v)
    : LeadsTo succ cut roots w

variable [DecidableEq α]

/--
The vertices entered by visiting `vs` one after another, the latest first, each with the number of
edges that may still be followed from it. `left` is one more than that number for the vertices `vs`.
-/
def search (succ : α → List α) : (left : Nat) → List (α × Nat) → List α → List (α × Nat)
  | 0, entered, _ => entered
  | left + 1, entered, vs =>
    vs.foldl (fun entered v =>
      if v ∈ entered.map Prod.fst then
        entered
      else
        search succ left ((v, left) :: entered) (succ v)) entered

def entries (succ : α → List α) (limit : Nat) (roots : List α) : List (α × Nat) :=
  search succ (limit + 1) [] roots

@[simp]
theorem search_zero {entered : List (α × Nat)} {vs : List α}
    : search succ 0 entered vs = entered := rfl

@[simp]
theorem search_nil {left : Nat} {entered : List (α × Nat)}
    : search succ left entered [] = entered := by
  cases left <;> rfl

theorem search_append {left : Nat} {entered : List (α × Nat)} {vs ws : List α}
    : search succ left entered (vs ++ ws) = search succ left (search succ left entered vs) ws := by
  cases left with
  | zero => rfl
  | succ left => simp only [search, List.foldl_append]

theorem search_cons_seen {left : Nat} {entered : List (α × Nat)} {v : α} {vs : List α}
    (hseen : v ∈ entered.map Prod.fst)
    : search succ left entered (v :: vs) = search succ left entered vs := by
  cases left with
  | zero => rfl
  | succ left => simp only [search, List.foldl_cons, if_pos hseen]

theorem search_cons_enter {left : Nat} {entered : List (α × Nat)} {v : α} {vs : List α}
    (hnew : v ∉ entered.map Prod.fst)
    : search succ (left + 1) entered (v :: vs)
        = search succ (left + 1) (search succ left ((v, left) :: entered) (succ v)) vs := by
  simp only [search, List.foldl_cons, if_neg hnew]

theorem search_induction (succ : α → List α) {P : Nat → List (α × Nat) → List α → Prop}
    (hzero : ∀ entered vs, P 0 entered vs)
    (hnil : ∀ left entered, P (left + 1) entered [])
    (hseen : ∀ left entered v vs, v ∈ entered.map Prod.fst → P (left + 1) entered vs
      → P (left + 1) entered (v :: vs))
    (henter : ∀ left entered v vs, v ∉ entered.map Prod.fst
      → P left ((v, left) :: entered) (succ v)
      → P (left + 1) (search succ left ((v, left) :: entered) (succ v)) vs
      → P (left + 1) entered (v :: vs))
    (left : Nat) (entered : List (α × Nat)) (vs : List α) : P left entered vs := by
  induction left generalizing entered vs with
  | zero => apply hzero
  | succ left ih =>
    induction vs generalizing entered with
    | nil => apply hnil
    | cons v vs ihvs =>
      by_cases hv : v ∈ entered.map Prod.fst
      . apply hseen left entered v vs hv (ihvs entered)
      . apply henter left entered v vs hv (ih _ _) (ihvs _)

theorem mem_search {left : Nat} {entered : List (α × Nat)} {vs : List α} {entry : α × Nat}
    (h : entry ∈ entered) : entry ∈ search succ left entered vs := by
  induction left, entered, vs using search_induction succ with
  | hzero => exact h
  | hnil => exact h
  | hseen left entered v vs hv ih =>
    rw [search_cons_seen hv]
    apply ih h
  | henter left entered v vs hv ih1 ih2 =>
    rw [search_cons_enter hv]
    apply ih2 (ih1 (List.mem_cons_of_mem _ h))

theorem entered_search {left : Nat} {entered : List (α × Nat)} {vs : List α} {v : α}
    (h : v ∈ entered.map Prod.fst) : v ∈ (search succ left entered vs).map Prod.fst := by
  rw [List.mem_map] at h ⊢
  rcases h with ⟨entry, hentry, heq⟩
  exact ⟨entry, mem_search hentry, heq⟩

theorem visited {left : Nat} {entered : List (α × Nat)} {vs : List α} {v : α} (h : v ∈ vs)
    : v ∈ (search succ (left + 1) entered vs).map Prod.fst := by
  rcases List.append_of_mem h with ⟨before, after, heq⟩
  rw [heq, search_append]
  by_cases hv : v ∈ (search succ (left + 1) entered before).map Prod.fst
  . apply entered_search hv
  . rw [search_cons_enter hv]
    apply entered_search
    apply entered_search
    simp

theorem closed {left : Nat} {entered : List (α × Nat)} {vs : List α} {v w : α} {more : Nat}
    (h : (v, more + 1) ∈ search succ left entered vs) (hw : w ∈ succ v)
    : (v, more + 1) ∈ entered ∨ w ∈ (search succ left entered vs).map Prod.fst := by
  induction left, entered, vs using search_induction succ with
  | hzero => exact .inl h
  | hnil => exact .inl h
  | hseen left entered u vs hu ih =>
    rw [search_cons_seen hu] at h ⊢
    apply ih h
  | henter left entered u vs hu ih1 ih2 =>
    rw [search_cons_enter hu] at h ⊢
    cases ih2 h with
    | inr hrest => exact .inr hrest
    | inl hbelow =>
      cases ih1 hbelow with
      | inr hwent => exact .inr (entered_search hwent)
      | inl hold =>
        cases hold with
        | tail _ hold => exact .inl hold
        | head => exact .inr (entered_search (visited hw))

theorem parent_of_mem {left : Nat} {entered : List (α × Nat)} {vs : List α} {w : α} {more : Nat}
    (h : (w, more) ∈ search succ left entered vs)
    : (w, more) ∈ entered ∨ (w ∈ vs ∧ left = more + 1)
        ∨ ∃ v, (v, more + 1) ∈ search succ left entered vs ∧ w ∈ succ v := by
  induction left, entered, vs using search_induction succ with
  | hzero => exact .inl h
  | hnil => exact .inl h
  | hseen left entered u vs hu ih =>
    rw [search_cons_seen hu] at h ⊢
    rcases ih h with hold | ⟨hvs, hleft⟩ | hsucc
    . exact .inl hold
    . exact .inr (.inl ⟨List.mem_cons_of_mem u hvs, hleft⟩)
    . exact .inr (.inr hsucc)
  | henter left entered u vs hu ih1 ih2 =>
    rw [search_cons_enter hu] at h ⊢
    rcases ih2 h with hbelow | ⟨hvs, hleft⟩ | hsucc
    . rcases ih1 hbelow with hold | ⟨hw, hleft⟩ | ⟨v, hv, hw⟩
      . cases hold with
        | head => exact .inr (.inl ⟨List.mem_cons_self, rfl⟩)
        | tail _ hold => exact .inl hold
      . rw [← hleft]
        exact .inr (.inr ⟨u, mem_search (mem_search List.mem_cons_self), hw⟩)
      . exact .inr (.inr ⟨v, mem_search hv, hw⟩)
    . exact .inr (.inl ⟨List.mem_cons_of_mem u hvs, hleft⟩)
    . exact .inr (.inr hsucc)

theorem nodup {left : Nat} {entered : List (α × Nat)} {vs : List α}
    (h : (entered.map Prod.fst).Nodup) : ((search succ left entered vs).map Prod.fst).Nodup := by
  induction left, entered, vs using search_induction succ with
  | hzero => exact h
  | hnil => exact h
  | hseen left entered v vs hv ih =>
    rw [search_cons_seen hv]
    apply ih h
  | henter left entered v vs hv ih1 ih2 =>
    rw [search_cons_enter hv]
    apply ih2 (ih1 _)
    rw [List.map_cons, List.nodup_cons]
    apply And.intro hv h

theorem length_le {left : Nat} {entered : List (α × Nat)} {vs : List α}
    : entered.length ≤ (search succ left entered vs).length := by
  induction left, entered, vs using search_induction succ with
  | hzero => apply Nat.le_refl
  | hnil => apply Nat.le_refl
  | hseen left entered v vs hv ih =>
    rw [search_cons_seen hv]
    apply ih
  | henter left entered v vs hv ih1 ih2 =>
    rw [search_cons_enter hv]
    rw [List.length_cons] at ih1
    omega

theorem limit_lt {limit left : Nat} {entered : List (α × Nat)} {vs : List α}
    (hleft : limit < left + entered.length)
    (hentered : ∀ v more, (v, more) ∈ entered → limit < more + entered.length)
    : ∀ v more, (v, more) ∈ search succ left entered vs
        → limit < more + (search succ left entered vs).length := by
  induction left, entered, vs using search_induction succ with
  | hzero => exact hentered
  | hnil => exact hentered
  | hseen left entered u vs hu ih =>
    rw [search_cons_seen hu]
    apply ih hleft hentered
  | henter left entered u vs hu ih1 ih2 =>
    rw [search_cons_enter hu]
    have hle : ((u, left) :: entered).length
        ≤ (search succ left ((u, left) :: entered) (succ u)).length := length_le
    rw [List.length_cons] at hle
    apply ih2 (by omega)
    apply ih1
    . rw [List.length_cons]
      omega
    . intro v more hmem
      rw [List.length_cons]
      cases hmem with
      | head => omega
      | tail _ hold =>
        have hlt := hentered v more hold
        omega

theorem chain_of_mem {limit : Nat} {roots : List α} {n left : Nat} {entered : List (α × Nat)}
    {vs : List α} (hleft : n + left = limit + 1) (hvs : ∀ v ∈ vs, Chain succ roots n v)
    (hentered : ∀ v more, (v, more) ∈ entered → more ≤ limit ∧ Chain succ roots (limit - more) v)
    : ∀ v more, (v, more) ∈ search succ left entered vs
        → more ≤ limit ∧ Chain succ roots (limit - more) v := by
  induction left, entered, vs using search_induction succ generalizing n with
  | hzero => exact hentered
  | hnil => exact hentered
  | hseen left entered u vs hu ih =>
    rw [search_cons_seen hu]
    apply ih hleft (fun v hv => hvs v (List.mem_cons_of_mem u hv)) hentered
  | henter left entered u vs hu ih1 ih2 =>
    rw [search_cons_enter hu]
    have hchain : Chain succ roots n u := hvs u List.mem_cons_self
    apply ih2 hleft (fun v hv => hvs v (List.mem_cons_of_mem u hv))
    apply ih1 (n := n + 1) (by omega) (fun v hv => .step hchain hv)
    intro v more hmem
    cases hmem with
    | tail _ hold => apply hentered v more hold
    | head =>
      rw [show limit - left = n by omega]
      exact ⟨by omega, hchain⟩

section Entries

variable {limit : Nat} {roots : List α}

def Within (succ : α → List α) (limit : Nat) (roots : List α) (v : α) : Prop :=
  ∃ n, n ≤ limit ∧ Chain succ roots n v

/--
A vertex that is entered at the limit, although fewer edges lead to it, has only successors that are
roots or are successors of vertices entered above the limit.
-/
def DetoursHarmless (succ : α → List α) (limit : Nat) (roots : List α) : Prop :=
  ∀ v n, (v, 0) ∈ entries succ limit roots → n < limit → Chain succ roots n v
    → ∀ w ∈ succ v, w ∈ roots ∨ ∃ u more, (u, more + 1) ∈ entries succ limit roots ∧ w ∈ succ u

theorem nodup_entries : ((entries succ limit roots).map Prod.fst).Nodup := by
  apply nodup
  apply List.nodup_nil

theorem limit_lt_length {v : α} {more : Nat} (h : (v, more) ∈ entries succ limit roots)
    : limit < more + (entries succ limit roots).length := by
  apply limit_lt _ _ v more h
  . simp
  . simp

theorem within_of_entered {v : α} (h : v ∈ (entries succ limit roots).map Prod.fst)
    : Within succ limit roots v := by
  rw [List.mem_map] at h
  rcases h with ⟨⟨u, more⟩, hentry, heq⟩
  have hchain := chain_of_mem (Nat.zero_add _) (fun r hr => .root hr) (by simp) u more hentry
  rw [← show u = v from heq]
  exact ⟨limit - more, by omega, hchain.right⟩

theorem left_le {v : α} {more : Nat} (h : (v, more) ∈ entries succ limit roots) : more ≤ limit :=
  (chain_of_mem (Nat.zero_add _) (fun _ hr => .root hr) (by simp) v more h).left

theorem left_unique {v : α} {m n : Nat} (hm : (v, m) ∈ entries succ limit roots)
    (hn : (v, n) ∈ entries succ limit roots) : m = n := by
  have heq := List.inj_on_of_nodup_map nodup_entries hm hn rfl
  rw [Prod.mk.injEq] at heq
  apply heq.right

theorem entered_iff_origin {w : α}
    : w ∈ (entries succ limit roots).map Prod.fst
        ↔ w ∈ roots ∨ ∃ u more, (u, more + 1) ∈ entries succ limit roots ∧ w ∈ succ u := by
  constructor
  . intro h
    rw [List.mem_map] at h
    rcases h with ⟨⟨u, more⟩, hentry, heq⟩
    rw [show u = w from heq] at hentry
    rcases parent_of_mem hentry with hnone | ⟨hroot, _⟩ | ⟨v, hv, hw⟩
    . simp at hnone
    . exact .inl hroot
    . exact .inr ⟨v, more, hv, hw⟩
  . intro h
    rcases h with hroot | ⟨u, more, hu, hw⟩
    . apply visited hroot
    . cases closed hu hw with
      | inl hnone => simp at hnone
      | inr hentered => exact hentered

theorem leadsTo_of_mem {v : α} {more : Nat} (h : (v, more) ∈ entries succ limit roots)
    : LeadsTo succ (fun u => (u, 0) ∈ entries succ limit roots) roots v := by
  generalize hn : limit - more = n
  induction n generalizing v more with
  | zero =>
    rcases parent_of_mem h with hnone | ⟨hroot, _⟩ | ⟨u, hu, _⟩
    . simp at hnone
    . exact .root hroot
    . have hle := left_le hu
      omega
  | succ n ih =>
    rcases parent_of_mem h with hnone | ⟨hroot, _⟩ | ⟨u, hu, hw⟩
    . simp at hnone
    . exact .root hroot
    . refine .step (ih hu (by omega)) ?_ hw
      intro hcut
      have hzero := left_unique hu hcut
      omega

theorem entered_iff_leadsTo {v : α}
    : v ∈ (entries succ limit roots).map Prod.fst
        ↔ LeadsTo succ (fun u => (u, 0) ∈ entries succ limit roots) roots v := by
  constructor
  . intro h
    rw [List.mem_map] at h
    rcases h with ⟨⟨u, more⟩, hentry, heq⟩
    rw [show u = v from heq] at hentry
    apply leadsTo_of_mem hentry
  . intro h
    induction h with
    | root hroot => exact entered_iff_origin.mpr (.inl hroot)
    | @step u w _ hopen hw ih =>
      rw [List.mem_map] at ih
      rcases ih with ⟨⟨u', more⟩, hentry, heq⟩
      rw [show u' = u from heq] at hentry
      cases more with
      | zero => exact absurd hentry hopen
      | succ more => exact entered_iff_origin.mpr (.inr ⟨u, more, hentry, hw⟩)

theorem entered_iff_within
    : (∀ v, v ∈ (entries succ limit roots).map Prod.fst ↔ Within succ limit roots v)
        ↔ DetoursHarmless succ limit roots := by
  constructor
  . intro hexact v n hv hn hchain w hw
    rw [← entered_iff_origin, hexact]
    exact ⟨n + 1, hn, .step hchain hw⟩
  . intro hharmless v
    refine ⟨within_of_entered, ?_⟩
    intro ⟨n, hn, hchain⟩
    induction hchain with
    | root hroot => exact entered_iff_origin.mpr (.inl hroot)
    | @step n u w hchain hw ih =>
      have hu := ih (by omega)
      rw [List.mem_map] at hu
      rcases hu with ⟨⟨u', more⟩, hentry, heq⟩
      rw [show u' = u from heq] at hentry
      cases more with
      | zero => exact entered_iff_origin.mpr (hharmless u n hentry (by omega) hchain w hw)
      | succ more => exact entered_iff_origin.mpr (.inr ⟨u, more, hentry, hw⟩)

end Entries

end LimitedSearch
