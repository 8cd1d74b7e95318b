import Idax.Library.Glob
import Idax.Library.Scan

/-!
The patterns of plugin allowlists. The matcher goes through the text and the pattern by their indices
and goes back to the last star that it met. It does not see a star of the pattern that stands at a
star of the text, since it compares the two characters first.
-/

namespace Idax
namespace Database

abbrev Text := List UInt8

def questionMark : UInt8 := 0x3f

def asterisk : UInt8 := 0x2a

section Matcher

structure MatchState where
  textIndex : Nat := 0
  patternIndex : Nat := 0
  starIndex : Option Nat := none
  matchAfterStar : Nat := 0
  matchAfterStar_le : matchAfterStar ≤ textIndex := by omega

def skipAsterisks (pattern : Text) (patternIndex : Nat) : Nat :=
  patternIndex
    + Scan.run (fun i => decide (pattern[patternIndex + i]? = some asterisk)) pattern.length

def matchStep (text pattern : Text) (s : MatchState) : Bool ⊕ MatchState :=
  if s.textIndex < text.length then
    if s.patternIndex < pattern.length
        ∧ (pattern[s.patternIndex]? = some questionMark
          ∨ pattern[s.patternIndex]? = text[s.textIndex]?) then
      .inr {
        s with
        textIndex := s.textIndex + 1
        patternIndex := s.patternIndex + 1
        matchAfterStar_le := Nat.le_succ_of_le s.matchAfterStar_le
      }
    else if s.patternIndex < pattern.length ∧ pattern[s.patternIndex]? = some asterisk then
      .inr {
        textIndex := s.textIndex
        patternIndex := s.patternIndex + 1
        starIndex := some s.patternIndex
        matchAfterStar := s.textIndex
      }
    else
      match s.starIndex with
      | some starIndex =>
        .inr {
          textIndex := s.matchAfterStar + 1
          patternIndex := starIndex + 1
          starIndex := some starIndex
          matchAfterStar := s.matchAfterStar + 1
        }
      | none => .inl false
  else
    .inl (decide (skipAsterisks pattern s.patternIndex = pattern.length))

def MatchState.left (text pattern : Text) (s : MatchState) : Nat × Nat :=
  ( if s.starIndex.isSome then text.length - s.matchAfterStar else text.length + 1
  , (text.length - s.textIndex) + (pattern.length - s.patternIndex) )

theorem left_matchStep {text pattern : Text} {s s' : MatchState}
    (h : matchStep text pattern s = .inr s')
    : Prod.Lex (· < ·) (· < ·) (s'.left text pattern) (s.left text pattern) := by
  have hle := s.matchAfterStar_le
  rw [Prod.lex_def]
  unfold matchStep at h
  split at h
  . next htext =>
    split at h
    . next heat =>
      cases h
      right
      exact ⟨rfl, by dsimp [MatchState.left]; omega⟩
    . split at h
      . next hstar =>
        cases h
        dsimp [MatchState.left]
        split
        . omega
        . left
          omega
      . split at h
        . next hback =>
          cases h
          left
          simp only [MatchState.left, hback, Option.isSome_some, if_true]
          omega
        . cases h
  . cases h

def matchLoop (text pattern : Text) (s : MatchState) : Bool :=
  match _h : matchStep text pattern s with
  | .inl answer => answer
  | .inr s' => matchLoop text pattern s'
termination_by s.left text pattern
decreasing_by apply left_matchStep; assumption

def wildcardMatch (text pattern : Text) : Bool :=
  matchLoop text pattern {}

end Matcher

section Reference

inductive GlobMatches : Text → Text → Prop where
  | nil : GlobMatches [] []
  | any {c cs ps} (h : GlobMatches cs ps) : GlobMatches (c :: cs) (questionMark :: ps)
  | run {cs ps} (run : Text) (h : GlobMatches cs ps) : GlobMatches (run ++ cs) (asterisk :: ps)
  | literal {c cs ps} (hany : c ≠ questionMark) (hrun : c ≠ asterisk) (h : GlobMatches cs ps)
    : GlobMatches (c :: cs) (c :: ps)

def Eats (p c : UInt8) : Prop :=
  p = questionMark ∨ p = c

def IsAsterisk (p : UInt8) : Prop :=
  p = asterisk

/--
The text matches the pattern in such a way that each `*` of the pattern that comes to stand at a `*`
of the text is matched with this one character.
-/
def MatchesLiterally (text pattern : Text) : Prop :=
  Glob.EatsFirst Eats IsAsterisk text pattern

theorem globMatches_iff {text pattern : Text}
    : GlobMatches text pattern ↔ Glob.Matches Eats IsAsterisk text pattern := by
  constructor
  . intro h
    induction h with
    | nil => exact .nil
    | any _ ih => exact .one (by simp [IsAsterisk, questionMark, asterisk]) (.inl rfl) ih
    | run run _ ih => exact .star run rfl ih
    | literal _ hrun _ ih => exact .one hrun (.inr rfl) ih
  . intro h
    induction h with
    | nil => exact .nil
    | @one c _ p _ hstar heats _ ih =>
      by_cases hany : p = questionMark
      . rw [hany]
        exact .any ih
      . cases heats with
        | inl heq => exact absurd heq hany
        | inr heq =>
          subst heq
          exact .literal hany hstar ih
    | star run hstar _ ih =>
      rw [hstar]
      exact .run run ih

theorem matchesLiterally_of_globMatches {text pattern : Text} (htext : asterisk ∉ text)
    (h : GlobMatches text pattern) : MatchesLiterally text pattern := by
  apply Glob.EatsFirst.of_matches (globMatches_iff.mp h)
  intro c hc p hstar heats
  rw [hstar] at heats
  cases heats with
  | inl heq => revert heq; decide
  | inr heq =>
    rw [← heq] at hc
    exact htext hc

end Reference

section Correctness

def MatchState.back (text pattern : Text) (s : MatchState) : Option (Text × Text) :=
  s.starIndex.map fun starIndex => (text.drop s.matchAfterStar, pattern.drop (starIndex + 1))

theorem skipAsterisks_eq_length_iff {pattern : Text} {patternIndex : Nat}
    (hle : patternIndex ≤ pattern.length)
    : skipAsterisks pattern patternIndex = pattern.length
        ↔ ∀ p ∈ pattern.drop patternIndex, IsAsterisk p := by
  have hget : ∀ i, (pattern.drop patternIndex)[i]? = pattern[patternIndex + i]? := by
    intro i
    rw [List.getElem?_drop]
  unfold skipAsterisks
  constructor
  . intro hskip p hp
    rcases List.mem_iff_getElem?.mp hp with ⟨i, hi⟩
    have hlt := (List.getElem?_eq_some_iff.mp hi).choose
    rw [List.length_drop] at hlt
    have hrun : i < Scan.run (fun i => decide (pattern[patternIndex + i]? = some asterisk))
        pattern.length := by
      omega
    have htrue := Scan.of_lt_run hrun
    rw [hget] at hi
    simpa [hi, IsAsterisk] using htrue
  . intro hall
    have hrun : Scan.run (fun i => decide (pattern[patternIndex + i]? = some asterisk))
        pattern.length = pattern.length - patternIndex := by
      apply Scan.run_eq
      . simp
      . intro i hi
        have hstar := hall pattern[patternIndex + i] (List.mem_drop_iff_getElem.mpr ⟨i, by omega, rfl⟩)
        rw [List.getElem?_eq_getElem (by omega), hstar, decide_eq_true rfl]
      . simp [Nat.add_sub_of_le hle]
    omega

namespace MatchState

variable {text pattern : Text}

structure InPattern (pattern : Text) (s : MatchState) : Prop where
  patternIndex_le : s.patternIndex ≤ pattern.length
  starIndex_lt : ∀ i, s.starIndex = some i → i < pattern.length

def Answers (text pattern : Text) (s : MatchState) (answer : Bool) : Prop :=
  Glob.Runs Eats IsAsterisk (text.drop s.textIndex) (pattern.drop s.patternIndex)
    (s.back text pattern) answer

theorem stuck {s : MatchState} (htext : s.textIndex < text.length)
    (heat : ¬(s.patternIndex < pattern.length
      ∧ (pattern[s.patternIndex]? = some questionMark
        ∨ pattern[s.patternIndex]? = text[s.textIndex]?)))
    (hstar : ¬(s.patternIndex < pattern.length ∧ pattern[s.patternIndex]? = some asterisk))
    : Glob.Stuck Eats IsAsterisk text[s.textIndex] (pattern.drop s.patternIndex) := by
  intro p hp
  rw [List.head?_drop, Option.mem_def] at hp
  have hlt := (List.getElem?_eq_some_iff.mp hp).choose
  rw [hp, List.getElem?_eq_getElem htext, Option.some_inj, Option.some_inj] at heat
  rw [hp, Option.some_inj] at hstar
  exact ⟨fun h => heat ⟨hlt, h⟩, fun h => hstar ⟨hlt, h⟩⟩

def Leads (text pattern : Text) (s : MatchState) : Bool ⊕ MatchState → Prop
  | .inl answer => s.Answers text pattern answer
  | .inr s' =>
    s'.InPattern pattern
      ∧ ∀ answer, s'.Answers text pattern answer → s.Answers text pattern answer

theorem leads_matchStep {s : MatchState} (h : s.InPattern pattern)
    : s.Leads text pattern (matchStep text pattern s) := by
  unfold matchStep
  split
  . next htext =>
    have hcs := List.drop_eq_getElem_cons htext
    split
    . next heat =>
      have hps := List.drop_eq_getElem_cons heat.left
      refine ⟨⟨heat.left, h.starIndex_lt⟩, ?_⟩
      intro answer hanswer
      unfold Answers
      rw [hcs, hps]
      apply Glob.Runs.eat _ hanswer
      simpa [htext, heat.left, Eats] using heat.right
    . next heat =>
      split
      . next hstar =>
        have hps := List.drop_eq_getElem_cons hstar.left
        have hasterisk : IsAsterisk pattern[s.patternIndex] := by
          simpa [IsAsterisk, hstar.left] using hstar.right
        refine ⟨⟨hstar.left, ?_⟩, ?_⟩
        . intro i hi
          rw [← Option.some_inj.mp hi]
          apply hstar.left
        . intro answer hanswer
          unfold Answers at hanswer ⊢
          dsimp only [back, Option.map_some] at hanswer
          rw [hcs] at hanswer ⊢
          rw [hps]
          apply Glob.Runs.star _ hasterisk hanswer
          intro heats
          apply heat
          simpa [htext, hstar.left, Eats] using heats
      . next hstar =>
        have hstuck := stuck htext heat hstar
        split
        . next starIndex hback =>
          have hlt := h.starIndex_lt starIndex hback
          have hts := List.drop_eq_getElem_cons (Nat.lt_of_le_of_lt s.matchAfterStar_le htext)
          refine ⟨⟨hlt, ?_⟩, ?_⟩
          . intro i hi
            rw [← Option.some_inj.mp hi]
            apply hlt
          . intro answer hanswer
            unfold Answers
            rw [hcs, back, hback, Option.map_some, hts]
            apply Glob.Runs.back hstuck hanswer
        . next hback =>
          unfold Leads Answers
          rw [hcs, back, hback]
          apply Glob.Runs.fail hstuck
  . next htext =>
    unfold Leads Answers
    rw [List.drop_eq_nil_of_le (by omega)]
    apply Glob.Runs.done
    rw [decide_eq_true_iff, skipAsterisks_eq_length_iff h.patternIndex_le]

theorem answers_matchLoop {s : MatchState} (h : s.InPattern pattern)
    : s.Answers text pattern (matchLoop text pattern s) := by
  have hstep : s.Leads text pattern (matchStep text pattern s) := leads_matchStep h
  unfold matchLoop
  split
  . next answer heq =>
    rw [heq] at hstep
    apply hstep
  . next s' heq =>
    rw [heq] at hstep
    apply hstep.right _ (answers_matchLoop hstep.left)
termination_by s.left text pattern
decreasing_by apply left_matchStep; assumption

end MatchState

def matchTurns (text pattern : Text) : (turns : Nat) → MatchState → Bool ⊕ MatchState
  | 0, s => .inr s
  | turns + 1, s =>
    match matchStep text pattern s with
    | .inl answer => .inl answer
    | .inr s' => matchTurns text pattern turns s'

theorem matchLoop_terminates (text pattern : Text) (s : MatchState)
    : ∃ turns, matchTurns text pattern turns s = .inl (matchLoop text pattern s) := by
  unfold matchLoop
  split
  . next answer heq =>
    refine ⟨1, ?_⟩
    rw [matchTurns, heq]
  . next s' heq =>
    rcases matchLoop_terminates text pattern s' with ⟨turns, hturns⟩
    refine ⟨turns + 1, ?_⟩
    rw [matchTurns, heq]
    apply hturns
termination_by s.left text pattern
decreasing_by apply left_matchStep; assumption

theorem wildcardMatch_iff (text pattern : Text)
    : wildcardMatch text pattern = true ↔ MatchesLiterally text pattern := by
  have hstart : MatchState.InPattern pattern {} := ⟨Nat.zero_le _, by simp⟩
  have hanswers : MatchState.Answers text pattern {} (wildcardMatch text pattern) :=
    MatchState.answers_matchLoop hstart
  apply hanswers.answer_iff_eatsFirst

theorem wildcardMatch_iff_globMatches {text : Text} (htext : asterisk ∉ text) (pattern : Text)
    : wildcardMatch text pattern = true ↔ GlobMatches text pattern := by
  rw [wildcardMatch_iff]
  constructor
  . intro h
    apply globMatches_iff.mpr h.toMatches
  . apply matchesLiterally_of_globMatches htext

/--
The matcher comes to an answer, and it is the right one exactly if a text that matches also matches
with each `*` of the pattern taken literally where it comes to stand at a `*`.
-/
theorem wildcardMatch_globMatches_iff (text pattern : Text)
    : (∃ turns, matchTurns text pattern turns {} = .inl (wildcardMatch text pattern))
        ∧ ((wildcardMatch text pattern = true ↔ GlobMatches text pattern)
          ↔ (GlobMatches text pattern → MatchesLiterally text pattern)) := by
  refine ⟨matchLoop_terminates text pattern {}, ?_⟩
  rw [wildcardMatch_iff]
  constructor
  . intro hiff
    apply hiff.mpr
  . intro himp
    refine ⟨?_, himp⟩
    intro h
    apply globMatches_iff.mpr h.toMatches

theorem not_wildcardMatch_asterisk
    : wildcardMatch [asterisk, 0x61] [asterisk] = false
        ∧ GlobMatches [asterisk, 0x61] [asterisk] := by
  constructor
  . simp [wildcardMatch, matchLoop, matchStep, asterisk, questionMark]
  . apply GlobMatches.run [asterisk, 0x61] .nil

end Correctness

end Database
end Idax
