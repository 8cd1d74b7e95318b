import Idax.Library.Transducer

/-!
The markup of forms. A field is `<label:type:width:visible width:help:>`, and a choice of a group is
`<choice:type>`, with a second `>` behind the last one of the group. In front of the first control is the
title, which is any text without a `<`; the text behind a control has no `<` or `>`. The main results
count the brackets of a form by its controls and the colons between two brackets by what they enclose,
and give the states that fields and choices with plain labels lead to.
-/

namespace FormMarkup

abbrev Text := List Char

inductive Control where
  | field (type : Char)
  | group (type : Char) (choices : Nat)
  deriving DecidableEq, Repr

/--
In a control, `group` is the type of the open group and the number of its choices so far, `colons` the
number of colons that were read, and `type` what was read behind the first of them.
-/
inductive State where
  | title
  | text
  | control (group : Option (Char × Nat)) (colons : Nat) (type : Option Char)
  | afterChoice (type : Char) (choices : Nat)
  | between (type : Char) (choices : Nat)
  deriving DecidableEq, Repr

def isChoiceType (type : Char) : Bool :=
  type = 'C' || type = 'R'

def stepColon (group : Option (Char × Nat)) (colons : Nat) (type : Option Char)
    : Option (State × List Control) :=
  if colons < 5 ∧ (colons = 1 → type.any fun t => !isChoiceType t) then
    some (.control group (colons + 1) type, [])
  else
    none

def stepClose (group : Option (Char × Nat)) (colons : Nat) (type : Option Char)
    : Option (State × List Control) :=
  match type, group with
  | none, _ => none
  | some t, none =>
    if isChoiceType t then
      if colons = 1 then some (.afterChoice t 1, []) else none
    else
      if colons = 5 then some (.text, [.field t]) else none
  | some t, some (t', n) =>
    if isChoiceType t ∧ colons = 1 ∧ t = t' then some (.afterChoice t (n + 1), []) else none

def stepChar (group : Option (Char × Nat)) (colons : Nat) (type : Option Char) (c : Char)
    : Option (State × List Control) :=
  if colons = 1 then
    match type with
    | none => some (.control group 1 (some c), [])
    | some _ => none
  else if colons < 5 then
    some (.control group colons type, [])
  else
    none

def step : State → Char → Option (State × List Control)
  | .title, c => if c = '<' then some (.control none 0 none, []) else some (.title, [])
  | .text, c =>
    if c = '<' then some (.control none 0 none, [])
    else if c = '>' then none
    else some (.text, [])
  | .control group colons type, c =>
    if c = '<' then none
    else if c = '>' then stepClose group colons type
    else if c = ':' then stepColon group colons type
    else stepChar group colons type c
  | .afterChoice t n, c =>
    if c = '<' then some (.control (some (t, n)) 0 none, [])
    else if c = '>' then some (.text, [.group t n])
    else some (.between t n, [])
  | .between t n, c =>
    if c = '<' then some (.control (some (t, n)) 0 none, [])
    else if c = '>' then none
    else some (.between t n, [])

def parse (markup : Text) : Option (List Control) :=
  match Transducer.run step .title markup with
  | some (.title, controls) => some controls
  | some (.text, controls) => some controls
  | _ => none

inductive Reads : State → Char → State → List Control → Prop where
  | title {c : Char} : c ≠ '<' → Reads .title c .title []
  | openFirst : Reads .title '<' (.control none 0 none) []
  | text {c : Char} : c ≠ '<' → c ≠ '>' → Reads .text c .text []
  | openField : Reads .text '<' (.control none 0 none) []
  | colon {group : Option (Char × Nat)} {colons : Nat} {type : Option Char}
      : colons < 5 → Reads (.control group colons type) ':' (.control group (colons + 1) type) []
  | char {group : Option (Char × Nat)} {colons : Nat} {type type' : Option Char} {c : Char}
      : c ≠ '<' → c ≠ '>' → c ≠ ':' → colons < 5
          → Reads (.control group colons type) c (.control group colons type') []
  | closeField {t : Char} : Reads (.control none 5 (some t)) '>' .text [.field t]
  | closeFirst {t : Char} : Reads (.control none 1 (some t)) '>' (.afterChoice t 1) []
  | closeChoice {t : Char} {n : Nat}
      : Reads (.control (some (t, n)) 1 (some t)) '>' (.afterChoice t (n + 1)) []
  | openSecond {t : Char} {n : Nat}
      : Reads (.afterChoice t n) '<' (.control (some (t, n)) 0 none) []
  | closeGroup {t : Char} {n : Nat} : Reads (.afterChoice t n) '>' .text [.group t n]
  | leave {t : Char} {n : Nat} {c : Char}
      : c ≠ '<' → c ≠ '>' → Reads (.afterChoice t n) c (.between t n) []
  | openChoice {t : Char} {n : Nat}
      : Reads (.between t n) '<' (.control (some (t, n)) 0 none) []
  | between {t : Char} {n : Nat} {c : Char}
      : c ≠ '<' → c ≠ '>' → Reads (.between t n) c (.between t n) []

section Steps

variable {s s' : State} {c : Char} {out : List Control} {group : Option (Char × Nat)} {colons : Nat}
  {type : Option Char}

theorem reads_of_stepColon (h : stepColon group colons type = some (s', out))
    : Reads (.control group colons type) ':' s' out := by
  unfold stepColon at h
  split at h
  . next hlt =>
    cases h
    exact .colon hlt.left
  . cases h

theorem reads_of_stepChar (hopen : c ≠ '<') (hclose : c ≠ '>') (hcolon : c ≠ ':')
    (h : stepChar group colons type c = some (s', out))
    : Reads (.control group colons type) c s' out := by
  unfold stepChar at h
  split at h
  . next hone =>
    cases type with
    | none =>
      cases h
      rw [hone]
      exact .char hopen hclose hcolon (by omega)
    | some _ => cases h
  . split at h
    . next hlt =>
      cases h
      exact .char hopen hclose hcolon hlt
    . cases h

theorem reads_of_stepClose (h : stepClose group colons type = some (s', out))
    : Reads (.control group colons type) '>' s' out := by
  unfold stepClose at h
  split at h
  . cases h
  . split at h
    . split at h
      . next hcolons =>
        cases h
        rw [hcolons]
        exact .closeFirst
      . cases h
    . split at h
      . next hcolons =>
        cases h
        rw [hcolons]
        exact .closeField
      . cases h
  . split at h
    . next hchoice =>
      cases h
      rw [hchoice.right.left, hchoice.right.right]
      exact .closeChoice
    . cases h

theorem reads_of_step (h : step s c = some (s', out)) : Reads s c s' out := by
  cases s with
  | title =>
    simp only [step] at h
    split at h
    . next hopen =>
      cases h
      rw [hopen]
      exact .openFirst
    . next hopen =>
      cases h
      exact .title hopen
  | text =>
    simp only [step] at h
    split at h
    . next hopen =>
      cases h
      rw [hopen]
      exact .openField
    . next hopen =>
      split at h
      . cases h
      . next hclose =>
        cases h
        exact .text hopen hclose
  | control group colons type =>
    simp only [step] at h
    split at h
    . cases h
    . next hopen =>
      split at h
      . next hclose =>
        rw [hclose]
        apply reads_of_stepClose h
      . next hclose =>
        split at h
        . next hcolon =>
          rw [hcolon]
          apply reads_of_stepColon h
        . next hcolon =>
          apply reads_of_stepChar hopen hclose hcolon h
  | afterChoice t n =>
    simp only [step] at h
    split at h
    . next hopen =>
      cases h
      rw [hopen]
      exact .openSecond
    . next hopen =>
      split at h
      . next hclose =>
        cases h
        rw [hclose]
        exact .closeGroup
      . next hclose =>
        cases h
        exact .leave hopen hclose
  | between t n =>
    simp only [step] at h
    split at h
    . next hopen =>
      cases h
      rw [hopen]
      exact .openChoice
    . next hopen =>
      split at h
      . cases h
      . next hclose =>
        cases h
        exact .between hopen hclose

end Steps

section Counting

def Control.opened : Control → Nat
  | .field _ => 1
  | .group _ n => n

def Control.closed : Control → Nat
  | .field _ => 1
  | .group _ n => n + 1

def State.opened : State → Nat
  | .title | .text => 0
  | .control group _ _ => 1 + (group.map (·.2)).getD 0
  | .afterChoice _ n | .between _ n => n

def State.closed : State → Nat
  | .title | .text => 0
  | .control group _ _ => (group.map (·.2)).getD 0
  | .afterChoice _ n | .between _ n => n

variable {s s' : State} {c : Char} {xs : Text} {out : List Control}

theorem Reads.opened (h : Reads s c s' out)
    : [c].count '<' + s.opened = s'.opened + (out.map Control.opened).sum := by
  cases h with
  | title hopen => simp [hopen]
  | text hopen hclose => simp [hopen]
  | char hopen hclose hcolon hlt => simp [hopen, State.opened]
  | leave hopen hclose => simp [hopen, State.opened]
  | between hopen hclose => simp [hopen]
  | _ => simp [State.opened, Control.opened, Nat.add_comm]

theorem Reads.closed (h : Reads s c s' out) (hs : s ≠ .title)
    : s' ≠ .title ∧ [c].count '>' + s.closed = s'.closed + (out.map Control.closed).sum := by
  cases h with
  | title hopen => simp at hs
  | openFirst => simp at hs
  | text hopen hclose => simp [hclose]
  | char hopen hclose hcolon hlt => simp [hclose, State.closed]
  | leave hopen hclose => simp [hclose, State.closed]
  | between hopen hclose => simp [hclose]
  | _ => simp [State.closed, Control.closed, Nat.add_comm]

theorem run_opened (h : Transducer.run step s xs = some (s', out))
    : xs.count '<' + s.opened = s'.opened + (out.map Control.opened).sum := by
  apply Transducer.run_count (I := fun _ => True) _ trivial h
  intro s c s' out _ hstep
  exact ⟨trivial, (reads_of_step hstep).opened⟩

theorem run_closed (hs : s ≠ .title) (h : Transducer.run step s xs = some (s', out))
    : xs.count '>' + s.closed = s'.closed + (out.map Control.closed).sum := by
  apply Transducer.run_count (I := fun s => s ≠ .title) _ hs h
  intro s c s' out hs hstep
  exact (reads_of_step hstep).closed hs

end Counting

def Plain (text : Text) : Prop :=
  ∀ c ∈ text, c ≠ ':' ∧ c ≠ '<' ∧ c ≠ '>'

instance Plain.decidablePred : DecidablePred Plain :=
  fun text => List.decidableBAll (fun c => c ≠ ':' ∧ c ≠ '<' ∧ c ≠ '>') text

theorem plain_iff {text : Text} : Plain text ↔ ':' ∉ text ∧ '<' ∉ text ∧ '>' ∉ text := by
  constructor
  . intro h
    refine ⟨?_, ?_, ?_⟩
    . intro hmem
      exact (h _ hmem).left rfl
    . intro hmem
      exact (h _ hmem).right.left rfl
    . intro hmem
      exact (h _ hmem).right.right rfl
  . rintro ⟨hcolon, hopen, hclose⟩ c hc
    exact ⟨ne_of_mem_of_not_mem hc hcolon, ne_of_mem_of_not_mem hc hopen,
      ne_of_mem_of_not_mem hc hclose⟩

section Enclosed

variable {s s' : State} {xs : Text} {out : List Control} {group : Option (Char × Nat)} {colons : Nat}
  {type : Option Char}

theorem run_enclosed (hopen : '<' ∉ xs) (hclose : '>' ∉ xs)
    (h : Transducer.run step (.control group colons type) xs = some (s', out))
    : ∃ type', s' = .control group (colons + xs.count ':') type' ∧ out = [] := by
  induction xs generalizing colons type out with
  | nil =>
    cases h
    exact ⟨type, rfl, rfl⟩
  | cons c xs ih =>
    rw [List.mem_cons, not_or] at hopen hclose
    rcases Transducer.run_cons_eq_some h with ⟨t, first, rest, hstep, hrest, hout⟩
    cases reads_of_step hstep with
    | colon hlt =>
      rcases ih hopen.right hclose.right hrest with ⟨type', hs', hnil⟩
      refine ⟨type', ?_, ?_⟩
      . rw [hs', List.count_cons_self, Nat.add_assoc, Nat.add_comm 1]
      . rw [hout, hnil, List.append_nil]
    | char _ _ hcolon hlt =>
      rcases ih hopen.right hclose.right hrest with ⟨type', hs', hnil⟩
      refine ⟨type', ?_, ?_⟩
      . rw [hs', List.count_cons_of_ne hcolon]
      . rw [hout, hnil, List.append_nil]
    | closeField => simp at hclose
    | closeFirst => simp at hclose
    | closeChoice => simp at hclose

theorem run_closed_control (hopen : '<' ∉ xs) (hclose : '>' ∉ xs)
    (h : Transducer.run step (.control group 0 none) (xs ++ ['>']) = some (s', out))
    : (xs.count ':' = 5 ∧ group = none ∧ ∃ t, out = [.field t])
      ∨ (xs.count ':' = 1 ∧ out = [] ∧ ∃ t n, s' = .afterChoice t n) := by
  rcases Transducer.run_append_eq_some h with ⟨t, first, rest, hfirst, hrest, hout⟩
  rcases run_enclosed hopen hclose hfirst with ⟨type, ht, hnil⟩
  rw [ht, Nat.zero_add] at hrest
  rcases Transducer.run_cons_eq_some hrest with ⟨u, one, more, hone, hmore, hrest⟩
  cases hmore
  rw [hout, hrest, hnil]
  generalize xs.count ':' = n at hone
  cases reads_of_step hone with
  | char _ hne _ _ => exact absurd rfl hne
  | closeField => exact .inl ⟨rfl, rfl, _, rfl⟩
  | closeFirst => exact .inr ⟨rfl, rfl, _, _, rfl⟩
  | closeChoice => exact .inr ⟨rfl, rfl, _, _, rfl⟩

theorem run_plain (hxs : Plain xs) (hone : colons ≠ 1) (hlt : colons < 5)
    : Transducer.run step (.control group colons type) xs
        = some (.control group colons type, []) := by
  induction xs with
  | nil => rfl
  | cons c xs ih =>
    have hc := hxs c (by simp)
    have hstep : step (.control group colons type) c = some (.control group colons type, []) := by
      simp [step, stepChar, hc, hone, hlt]
    apply Transducer.run_cons hstep
    apply ih
    intro c hc
    apply hxs c (by simp [hc])

theorem run_field {t : Char} {label width visible : Text} (hlabel : Plain label) (ht : Plain [t])
    (hfield : isChoiceType t = false) (hwidth : Plain width) (hvisible : Plain visible)
    : Transducer.run step .text
        (['<'] ++ label ++ [':', t, ':'] ++ width ++ [':'] ++ visible ++ [':', ':', '>'])
        = some (.text, [.field t]) := by
  have ht := ht t (by simp)
  have htype : Transducer.run step (.control none 0 none) [':', t, ':']
      = some (.control none 2 (some t), []) := by
    simp [Transducer.run, step, stepColon, stepChar, ht, hfield]
  have hcolon : Transducer.run step (.control none 2 (some t)) [':']
      = some (.control none 3 (some t), []) := rfl
  have hclose : Transducer.run step (.control none 3 (some t)) [':', ':', '>']
      = some (.text, [.field t]) := by
    simp [Transducer.run, step, stepColon, stepClose, hfield]
  have hopen : Transducer.run step .text ['<'] = some (.control none 0 none, []) := rfl
  have h := Transducer.run_append hopen (run_plain hlabel (by decide) (by decide))
  have h := Transducer.run_append h htype
  have h := Transducer.run_append h (run_plain hwidth (by decide) (by decide))
  have h := Transducer.run_append h hcolon
  have h := Transducer.run_append h (run_plain hvisible (by decide) (by decide))
  exact Transducer.run_append h hclose

theorem run_choice {t : Char} {n : Nat} {label : Text} (hlabel : Plain label) (ht : Plain [t])
    (hchoice : isChoiceType t = true) (hgroup : (group = none ∧ n = 0) ∨ group = some (t, n))
    : Transducer.run step (.control group 0 none) (label ++ [':', t, '>'])
        = some (.afterChoice t (n + 1), []) := by
  have ht := ht t (by simp)
  have hclose : stepClose group 1 (some t) = some (.afterChoice t (n + 1), []) := by
    rcases hgroup with ⟨hnone, hn⟩ | hsome
    . simp [stepClose, hnone, hn, hchoice]
    . simp [stepClose, hsome, hchoice]
  have htail : Transducer.run step (.control group 0 none) [':', t, '>']
      = some (.afterChoice t (n + 1), []) := by
    simp [Transducer.run, step, stepColon, stepChar, ht, hclose]
  exact Transducer.run_append (run_plain hlabel (by decide) (by decide)) htail

end Enclosed

end FormMarkup
