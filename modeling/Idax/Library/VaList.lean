import Mathlib.Data.List.Basic
import Mathlib.Data.List.Forall2

/-!
Argument lists of variadic calls. A callee takes its arguments at a cursor, the list of those that
are left. Where a `va_list` is an array type the callees that are given the same one move the same
cursor, so each starts where the one before it stopped; `va_copy` gives a callee a cursor of its own.
-/

namespace VaList

variable {α : Type u} {β : Type u} {η : Type v} {σ : Type w}

abbrev Reader (α : Type u) : Type u → Type u :=
  StateT (List α) Option

def arg (pick : α → Option β) : Reader α β
  | [] => none
  | a :: rest => (pick a).map fun b => (b, rest)

variable (read : η → Reader α β) (f : η → β → σ → σ)

def passShared : List η → List α → σ → Option σ
  | [], _, s => some s
  | h :: hs, va, s =>
    match read h va with
    | none => none
    | some (b, rest) => passShared hs rest (f h b s)

def passCopies : List η → List α → σ → Option σ
  | [], _, s => some s
  | h :: hs, va, s =>
    match read h va with
    | none => none
    | some (b, _) => passCopies hs va (f h b s)

def Received (va : List α) : List η → List β → Prop :=
  List.Forall₂ fun h b => ∃ rest, read h va = some (b, rest)

def fold (hs : List η) (bs : List β) (s : σ) : σ :=
  (hs.zip bs).foldl (fun s p => f p.1 p.2 s) s

variable {read} {f}

theorem exists_received {va : List α} {hs : List η} (h : ∀ h ∈ hs, ∃ p, read h va = some p)
    : ∃ bs, Received read va hs bs := by
  induction hs with
  | nil => exact ⟨[], List.Forall₂.nil⟩
  | cons k hs ih =>
    rcases h k List.mem_cons_self with ⟨⟨b, rest⟩, hread⟩
    rcases ih fun j hj => h j (List.mem_cons_of_mem k hj) with ⟨bs, hbs⟩
    exact ⟨b :: bs, List.Forall₂.cons ⟨rest, hread⟩ hbs⟩

theorem passCopies_eq_some_iff {hs : List η} {va : List α} {s s' : σ}
    : passCopies read f hs va s = some s'
      ↔ ∃ bs, Received read va hs bs ∧ s' = fold f hs bs s := by
  induction hs generalizing s with
  | nil =>
    simp only [passCopies, Received, List.forall₂_nil_left_iff, exists_eq_left, Option.some.injEq]
    apply eq_comm
  | cons h hs ih =>
    simp only [passCopies, Received, List.forall₂_cons_left_iff]
    constructor
    . intro hpass
      split at hpass
      . cases hpass
      . next b rest hread =>
        rcases ih.mp hpass with ⟨bs, hbs, heq⟩
        exact ⟨b :: bs, ⟨b, bs, ⟨rest, hread⟩, hbs, rfl⟩, heq⟩
    . rintro ⟨_, ⟨b, bs, ⟨rest, hread⟩, hbs, rfl⟩, heq⟩
      simp only [hread]
      apply ih.mpr ⟨bs, hbs, heq⟩

theorem passShared_eq_passCopies {hs : List η} (hlen : hs.length ≤ 1) (va : List α) (s : σ)
    : passShared read f hs va s = passCopies read f hs va s := by
  match hs with
  | [] => rfl
  | [h] =>
    simp only [passShared, passCopies]
  | _ :: _ :: _ => simp at hlen

theorem passShared_eq_none {h h' : η} {va rest : List α} {b : β} (hread : read h va = some (b, rest))
    (hnone : read h' rest = none) (hs : List η) (s : σ)
    : passShared read f (h :: h' :: hs) va s = none := by
  simp [passShared, hread, hnone]

end VaList
