import Mathlib.Data.List.Basic

/-!
Matching with patterns in which some items stand for one character and some, the stars, for any run
of characters. A matcher that goes back to the last star only is described by the steps it takes, and
it accepts the texts that match with each star eating a single character wherever it can eat one.
-/

namespace Glob

variable {α : Type u} {β : Type v} {eats : β → α → Prop} {IsStar : β → Prop}

/--
The items that are no stars match one character each that they eat, and the stars match anything.
-/
inductive Matches (eats : β → α → Prop) (IsStar : β → Prop) : List α → List β → Prop where
  | nil : Matches eats IsStar [] []
  | one {c cs p ps} (hstar : ¬IsStar p) (heats : eats p c) (h : Matches eats IsStar cs ps)
    : Matches eats IsStar (c :: cs) (p :: ps)
  | star {cs p ps} (run : List α) (hstar : IsStar p) (h : Matches eats IsStar cs ps)
    : Matches eats IsStar (run ++ cs) (p :: ps)

inductive EatsFirst (eats : β → α → Prop) (IsStar : β → Prop) : List α → List β → Prop where
  | nil : EatsFirst eats IsStar [] []
  | eat {c cs p ps} (heats : eats p c) (h : EatsFirst eats IsStar cs ps)
    : EatsFirst eats IsStar (c :: cs) (p :: ps)
  | star {cs p ps} (run : List α) (hstar : IsStar p)
    (hnone : ∀ c ∈ (run ++ cs).head?, ¬eats p c) (h : EatsFirst eats IsStar cs ps)
    : EatsFirst eats IsStar (run ++ cs) (p :: ps)

def Stuck (eats : β → α → Prop) (IsStar : β → Prop) (c : α) (ps : List β) : Prop :=
  ∀ p ∈ ps.head?, ¬eats p c ∧ ¬IsStar p

/--
A run of the matcher on what is left of the text and of the pattern, up to its answer. The point that
it goes back to is given by the text at which the last star was met and the pattern behind that star.
-/
inductive Runs (eats : β → α → Prop) (IsStar : β → Prop)
    : List α → List β → Option (List α × List β) → Bool → Prop where
  | done {ps back answer} (h : answer = true ↔ ∀ p ∈ ps, IsStar p)
    : Runs eats IsStar [] ps back answer
  | eat {c cs p ps back answer} (heats : eats p c) (h : Runs eats IsStar cs ps back answer)
    : Runs eats IsStar (c :: cs) (p :: ps) back answer
  | star {c cs p ps back answer} (hnone : ¬eats p c) (hstar : IsStar p)
    (h : Runs eats IsStar (c :: cs) ps (some (c :: cs, ps)) answer)
    : Runs eats IsStar (c :: cs) (p :: ps) back answer
  | back {c cs ps t ts qs answer} (hstuck : Stuck eats IsStar c ps)
    (h : Runs eats IsStar ts qs (some (ts, qs)) answer)
    : Runs eats IsStar (c :: cs) ps (some (t :: ts, qs)) answer
  | fail {c cs ps} (hstuck : Stuck eats IsStar c ps) : Runs eats IsStar (c :: cs) ps none false

theorem Matches.nil_iff {ps : List β} : Matches eats IsStar [] ps ↔ ∀ p ∈ ps, IsStar p := by
  constructor
  . intro h
    generalize hcs : ([] : List α) = cs at h
    induction h with
    | nil => simp
    | one => cases hcs
    | star run hstar _ ih =>
      have hempty := List.append_eq_nil_iff.mp hcs.symm
      rw [List.forall_mem_cons]
      apply And.intro hstar (ih hempty.right.symm)
  . intro h
    induction ps with
    | nil => exact .nil
    | cons p ps ih =>
      rw [List.forall_mem_cons] at h
      apply Matches.star [] h.left (ih h.right)

namespace EatsFirst

theorem toMatches {cs : List α} {ps : List β} (h : EatsFirst eats IsStar cs ps)
    : Matches eats IsStar cs ps := by
  induction h with
  | nil => exact .nil
  | @eat c _ p _ heats _ ih =>
    by_cases hstar : IsStar p
    . apply Matches.star [c] hstar ih
    . apply Matches.one hstar heats ih
  | star run hstar _ _ ih => apply Matches.star run hstar ih

theorem of_matches {cs : List α} {ps : List β} (h : Matches eats IsStar cs ps)
    (hdisjoint : ∀ c ∈ cs, ∀ p, IsStar p → ¬eats p c) : EatsFirst eats IsStar cs ps := by
  induction h with
  | nil => exact .nil
  | one _ heats _ ih =>
    apply EatsFirst.eat heats
    apply ih
    intro c hc
    apply hdisjoint c (List.mem_cons_of_mem _ hc)
  | star run hstar _ ih =>
    apply EatsFirst.star run hstar
    . intro c hc
      apply hdisjoint c (List.mem_of_mem_head? hc) _ hstar
    . apply ih
      intro c hc
      apply hdisjoint c (List.mem_append_right run hc)

theorem nil_iff {ps : List β} : EatsFirst eats IsStar ([] : List α) ps ↔ ∀ p ∈ ps, IsStar p := by
  constructor
  . intro h
    apply Matches.nil_iff.mp h.toMatches
  . intro h
    apply of_matches (Matches.nil_iff.mpr h)
    simp

theorem cons_iff {c : α} {cs : List α} {p : β} {ps : List β} (heats : eats p c)
    : EatsFirst eats IsStar (c :: cs) (p :: ps) ↔ EatsFirst eats IsStar cs ps := by
  constructor
  . intro h
    generalize htext : c :: cs = text at h
    cases h with
    | eat _ h =>
      cases htext
      apply h
    | star run hstar hnone _ =>
      rw [← htext] at hnone
      exact absurd heats (hnone c rfl)
  . apply EatsFirst.eat heats

theorem star_iff {text : List α} {p : β} {ps : List β} (hstar : IsStar p)
    (hnone : ∀ c ∈ text.head?, ¬eats p c)
    : EatsFirst eats IsStar text (p :: ps)
        ↔ ∃ rest, rest <:+ text ∧ EatsFirst eats IsStar rest ps := by
  constructor
  . intro h
    cases h with
    | @eat c cs _ _ heats _ => exact absurd heats (hnone c rfl)
    | @star cs _ _ run _ _ h => exact ⟨cs, List.suffix_append run cs, h⟩
  . intro ⟨rest, ⟨run, heq⟩, h⟩
    subst heq
    apply EatsFirst.star run hstar hnone h

theorem not_of_stuck {c : α} {cs : List α} {ps : List β} (hstuck : Stuck eats IsStar c ps)
    : ¬EatsFirst eats IsStar (c :: cs) ps := by
  intro h
  generalize htext : c :: cs = text at h
  cases h with
  | nil => cases htext
  | @eat _ _ p _ heats =>
    cases htext
    exact (hstuck p rfl).left heats
  | @star _ p _ _ hstar => exact (hstuck p rfl).right hstar

theorem tail_of_suffix {cs rest : List α} {p : β} {ps : List β} (hsuffix : rest <:+ cs)
    (h : EatsFirst eats IsStar rest (p :: ps))
    : ∃ rest', rest' <:+ cs ∧ EatsFirst eats IsStar rest' ps := by
  cases h with
  | @eat c rest' _ _ _ h => exact ⟨rest', (List.suffix_cons c rest').trans hsuffix, h⟩
  | @star rest' _ _ run _ _ h => exact ⟨rest', (List.suffix_append run rest').trans hsuffix, h⟩

end EatsFirst

inductive Eaten (eats : β → α → Prop) : List α → List β → List α → List β → Prop where
  | refl {ts ps} : Eaten eats ts ps ts ps
  | step {c cs p ps ts qs} (heats : eats p c) (h : Eaten eats cs ps ts qs)
    : Eaten eats (c :: cs) (p :: ps) ts qs

namespace Eaten

theorem snoc {bs ts : List α} {qs ps : List β} {c : α} {p : β} (heats : eats p c)
    (h : Eaten eats bs qs (c :: ts) (p :: ps)) : Eaten eats bs qs ts ps := by
  generalize htext : c :: ts = text at h
  generalize hpattern : p :: ps = pattern at h
  induction h with
  | refl =>
    subst htext hpattern
    exact .step heats .refl
  | step hfirst _ ih => exact .step hfirst (ih htext hpattern)

theorem eatsFirst_iff {bs ts : List α} {qs ps : List β} (h : Eaten eats bs qs ts ps)
    : EatsFirst eats IsStar bs qs ↔ EatsFirst eats IsStar ts ps := by
  induction h with
  | refl => rfl
  | step heats _ ih => rw [EatsFirst.cons_iff heats, ih]

theorem later {bs ts : List α} {qs ps : List β} (h : Eaten eats bs qs ts ps) {rest : List α}
    (hsuffix : rest <:+ bs) (hmatch : EatsFirst eats IsStar rest qs)
    : ∃ rest', rest' <:+ ts ∧ EatsFirst eats IsStar rest' ps := by
  induction h generalizing rest with
  | refl => exact ⟨rest, hsuffix, hmatch⟩
  | step heats _ ih =>
    rw [List.suffix_cons_iff] at hsuffix
    cases hsuffix with
    | inl heq =>
      rw [heq, EatsFirst.cons_iff heats] at hmatch
      apply ih (List.suffix_refl _) hmatch
    | inr hsuffix =>
      rcases EatsFirst.tail_of_suffix hsuffix hmatch with ⟨rest', hsuffix', hmatch'⟩
      apply ih hsuffix' hmatch'

end Eaten

namespace Runs

/--
Only the last star has to be revisited: what an earlier star could still be given, the last one can
be given as well.
-/
theorem answer_iff {ts : List α} {ps : List β} {back : Option (List α × List β)} {answer : Bool}
    (h : Runs eats IsStar ts ps back answer)
    : (back = none → (answer = true ↔ EatsFirst eats IsStar ts ps))
        ∧ ∀ bs qs, back = some (bs, qs) → Eaten eats bs qs ts ps
          → (answer = true ↔ ∃ rest, rest <:+ bs ∧ EatsFirst eats IsStar rest qs) := by
  induction h with
  | done hanswer =>
    rw [hanswer]
    refine ⟨fun _ => EatsFirst.nil_iff.symm, ?_⟩
    intro bs qs _ heaten
    constructor
    . intro hstars
      have hmatch := heaten.eatsFirst_iff.mpr (EatsFirst.nil_iff.mpr hstars)
      exact ⟨bs, List.suffix_refl bs, hmatch⟩
    . intro ⟨rest, hsuffix, hmatch⟩
      rcases heaten.later hsuffix hmatch with ⟨rest', hsuffix', hmatch'⟩
      rw [List.suffix_nil.mp hsuffix'] at hmatch'
      apply EatsFirst.nil_iff.mp hmatch'
  | eat heats _ ih =>
    refine ⟨?_, ?_⟩
    . intro hback
      rw [EatsFirst.cons_iff heats]
      apply ih.left hback
    . intro bs qs hback heaten
      apply ih.right bs qs hback (heaten.snoc heats)
  | @star c cs p ps back answer hnone hstar _ ih =>
    have hhead : ∀ c' ∈ (c :: cs).head?, ¬eats p c' := by
      intro c' hc
      rw [List.head?_cons, Option.mem_some_iff] at hc
      rw [← hc]
      apply hnone
    have hanswer := ih.right (c :: cs) ps rfl .refl
    rw [← EatsFirst.star_iff hstar hhead] at hanswer
    refine ⟨fun _ => hanswer, ?_⟩
    intro bs qs _ heaten
    rw [hanswer]
    constructor
    . intro hmatch
      exact ⟨bs, List.suffix_refl bs, heaten.eatsFirst_iff.mpr hmatch⟩
    . intro ⟨rest, hsuffix, hmatch⟩
      rcases heaten.later hsuffix hmatch with ⟨rest', hsuffix', hmatch'⟩
      rw [EatsFirst.star_iff hstar hhead]
      apply EatsFirst.tail_of_suffix hsuffix' hmatch'
  | @back c cs ps t ts qs answer hstuck _ ih =>
    refine ⟨by simp, ?_⟩
    intro bs qs' hback heaten
    cases hback
    rw [ih.right ts qs rfl .refl]
    constructor
    . intro ⟨rest, hsuffix, hmatch⟩
      exact ⟨rest, hsuffix.trans (List.suffix_cons t ts), hmatch⟩
    . intro ⟨rest, hsuffix, hmatch⟩
      rw [List.suffix_cons_iff] at hsuffix
      cases hsuffix with
      | inr hsuffix => exact ⟨rest, hsuffix, hmatch⟩
      | inl heq =>
        rw [heq, heaten.eatsFirst_iff] at hmatch
        exact absurd hmatch (EatsFirst.not_of_stuck hstuck)
  | fail hstuck =>
    refine ⟨?_, by simp⟩
    intro _
    simp only [Bool.false_eq_true, false_iff]
    apply EatsFirst.not_of_stuck hstuck

theorem answer_iff_eatsFirst {ts : List α} {ps : List β} {answer : Bool}
    (h : Runs eats IsStar ts ps none answer) : answer = true ↔ EatsFirst eats IsStar ts ps :=
  h.answer_iff.left rfl

end Runs

end Glob
