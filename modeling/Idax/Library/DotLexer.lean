import Mathlib.Algebra.BigOperators.Group.List.Basic
import Mathlib.Algebra.GroupWithZero.Nat
import Mathlib.Data.List.Count
import Idax.Library.Transducer

/-!
The tokens of the DOT language. A backslash in a double-quoted string stays there together with the
character behind it, unless that is a quote or the end of a line. The main result bounds how many
quotes and backslashes the tokens of a text stand for by the backslashes it has before these.
-/

namespace DotLanguage

abbrev Text := List Char

inductive QuotedChar where
  | plain (c : Char)
  | escaped (c : Char)
  deriving DecidableEq, Repr

inductive Token where
  | word (name : Text)
  | numeral (digits : Text)
  | quoted (value : List QuotedChar)
  | html (content : Text)
  | symbol (c : Char)
  | arrow
  | line
  deriving DecidableEq, Repr

inductive LexState where
  | lineStart
  | between
  | word (name : Text)
  | numeral (digits : Text)
  | quoted (value : List QuotedChar)
  | backslash (value : List QuotedChar)
  | html (depth : Nat) (content : Text)
  | minus
  | slash
  | lineComment
  | blockComment
  | blockCommentStar
  deriving DecidableEq, Repr

def isNameStart (c : Char) : Bool :=
  c.isAlpha || c = '_' || 128 ≤ c.toNat

def isNameChar (c : Char) : Bool :=
  isNameStart c || c.isDigit

def isNumeralChar (c : Char) : Bool :=
  c.isDigit || c = '.'

def isSymbol (c : Char) : Bool :=
  c ∈ ['{', '}', '[', ']', ';', ',', '=', ':', '+']

namespace LexState

def start (c : Char) : Option (LexState × List Token) :=
  if c = '\n' then
    some (.lineStart, [])
  else if c.isWhitespace then
    some (.between, [])
  else if isNameStart c then
    some (.word [c], [])
  else if isNumeralChar c then
    some (.numeral [c], [])
  else if isSymbol c then
    some (.between, [.symbol c])
  else if c = '"' then
    some (.quoted [], [])
  else if c = '<' then
    some (.html 0 [], [])
  else if c = '-' then
    some (.minus, [])
  else if c = '/' then
    some (.slash, [])
  else
    none

def startAfter (token : Token) (c : Char) : Option (LexState × List Token) :=
  (start c).map fun (s, out) => (s, token :: out)

def step : LexState → Char → Option (LexState × List Token)
  | .lineStart, c => if c = '#' then some (.lineComment, []) else start c
  | .between, c => start c
  | .word name, c => if isNameChar c then some (.word (name ++ [c]), []) else startAfter (.word name) c
  | .numeral digits, c =>
    if isNumeralChar c then
      some (.numeral (digits ++ [c]), [])
    else
      startAfter (.numeral digits) c
  | .quoted value, c =>
    if c = '"' then
      some (.between, [.quoted value])
    else if c = '\\' then
      some (.backslash value, [])
    else
      some (.quoted (value ++ [.plain c]), [])
  | .backslash value, c =>
    if c = '"' then
      some (.quoted (value ++ [.plain '"']), [])
    else if c = '\n' then
      some (.quoted value, [])
    else
      some (.quoted (value ++ [.escaped c]), [])
  | .html depth content, c =>
    if c = '<' then
      some (.html (depth + 1) (content ++ [c]), [])
    else if c = '>' then
      match depth with
      | 0 => some (.between, [.html content])
      | depth + 1 => some (.html depth (content ++ [c]), [])
    else
      some (.html depth (content ++ [c]), [])
  | .minus, c =>
    if c = '>' then
      some (.between, [.arrow])
    else if c = '-' then
      some (.between, [.line])
    else if isNumeralChar c then
      some (.numeral ['-', c], [])
    else
      none
  | .slash, c =>
    if c = '/' then
      some (.lineComment, [])
    else if c = '*' then
      some (.blockComment, [])
    else
      none
  | .lineComment, c => if c = '\n' then some (.lineStart, []) else some (.lineComment, [])
  | .blockComment, c => if c = '*' then some (.blockCommentStar, []) else some (.blockComment, [])
  | .blockCommentStar, c =>
    if c = '/' then
      some (.between, [])
    else if c = '*' then
      some (.blockCommentStar, [])
    else
      some (.blockComment, [])

def finish : LexState → Option (List Token)
  | .lineStart | .between | .lineComment => some []
  | .word name => some [.word name]
  | .numeral digits => some [.numeral digits]
  | _ => none

end LexState

def lex (text : Text) : Option (List Token) :=
  match Transducer.run LexState.step .lineStart text with
  | none => none
  | some (s, out) => s.finish.map (out ++ ·)

/--
Double-quoted strings with a `+` between them are one string.
-/
def concatenated : List Token → List Token
  | .quoted value :: .symbol '+' :: tokens =>
    match concatenated tokens with
    | .quoted more :: tokens => .quoted (value ++ more) :: tokens
    | tokens => .quoted value :: .symbol '+' :: tokens
  | token :: tokens => token :: concatenated tokens
  | [] => []

/--
What stands in a label: a character, or the name of the node or graph that a letter is replaced by.
-/
inductive LabelPart where
  | char (c : Char)
  | name (c : Char)
  deriving DecidableEq, Repr

namespace QuotedChar

def part : QuotedChar → LabelPart
  | .plain c => .char c
  | .escaped c =>
    if c ∈ ['n', 'l', 'r'] then
      .char '\n'
    else if c ∈ ['N', 'G', 'L'] then
      .name c
    else
      .char c

end QuotedChar

namespace Token

def chars : Token → List QuotedChar
  | .word name => name.map .plain
  | .numeral digits => digits.map .plain
  | .quoted value => value
  | _ => []

end Token

section Pieces

open LexState

variable {text more : Text}

theorem run_word (h : ∀ c ∈ text, isNameChar c = true) (name : Text)
    : Transducer.run step (.word name) text = some (.word (name ++ text), []) := by
  have hstep : ∀ c ∈ text, ∀ name, step (.word name) c = some (.word (name ++ [id c]), []) :=
    fun c hc name => if_pos (h c hc)
  have hrun := Transducer.run_collect LexState.word id hstep name
  rw [List.map_id] at hrun
  exact hrun

def quotedChars : Text → List QuotedChar
  | '\\' :: '\n' :: text => quotedChars text
  | '\\' :: c :: text => .escaped c :: quotedChars text
  | c :: text => .plain c :: quotedChars text
  | [] => []

theorem quotedChars_append (h : '\\' ∉ text) (more : Text)
    : quotedChars (text ++ more) = text.map .plain ++ quotedChars more := by
  induction text with
  | nil => rfl
  | cons c text ih =>
    rw [List.mem_cons, not_or] at h
    have hcons : quotedChars (c :: (text ++ more)) = .plain c :: quotedChars (text ++ more) := by
      rw [quotedChars]
      . intro _ hbackslash
        exact absurd hbackslash.symm h.left
      . intro _ _ hbackslash
        exact absurd hbackslash.symm h.left
    rw [List.cons_append, hcons, ih h.right]
    rfl

theorem quotedChars_of_not_mem (h : '\\' ∉ text) : quotedChars text = text.map .plain := by
  have happend := quotedChars_append h []
  rw [List.append_nil] at happend
  rw [happend]
  exact List.append_nil _

theorem run_quoted (hquote : '"' ∉ text) (hlast : text.getLast? ≠ some '\\')
    (value : List QuotedChar)
    : Transducer.run step (.quoted value) text = some (.quoted (value ++ quotedChars text), []) := by
  fun_induction quotedChars text generalizing value with
  | case1 text ih =>
    have hrest := ih (by simp_all) (by cases text <;> simp_all) value
    have hfirst : step (.quoted value) '\\' = some (.backslash value, []) := rfl
    have hsecond : step (.backslash value) '\n' = some (.quoted value, []) := rfl
    exact Transducer.run_cons hfirst (Transducer.run_cons hsecond hrest)
  | case2 c text hline ih =>
    have hrest := ih (by simp_all) (by cases text <;> simp_all) (value ++ [.escaped c])
    rw [List.append_assoc] at hrest
    have hc : c ≠ '"' := by
      intro heq
      simp [heq] at hquote
    have hfirst : step (.quoted value) '\\' = some (.backslash value, []) := rfl
    have hsecond : step (.backslash value) c = some (.quoted (value ++ [.escaped c]), []) := by
      simp only [step, hc, show c ≠ '\n' from hline, if_false]
    exact Transducer.run_cons hfirst (Transducer.run_cons hsecond hrest)
  | case3 c text hline hother ih =>
    have hrest := ih (by simp_all) (by cases text <;> simp_all) (value ++ [.plain c])
    rw [List.append_assoc] at hrest
    have hc : c ≠ '"' := by
      intro heq
      simp [heq] at hquote
    have hbackslash : c ≠ '\\' := by
      intro heq
      cases text with
      | nil => simp [heq] at hlast
      | cons d text => exact hother d text heq rfl
    have hstep : step (.quoted value) c = some (.quoted (value ++ [.plain c]), []) := by
      simp only [step, hc, hbackslash, if_false]
    exact Transducer.run_cons hstep hrest
  | case4 => simp

def escapes (parts : List LabelPart) : Nat :=
  2 * parts.count (.char '\\') + parts.count (.char '\n')

theorem escapes_append (parts others : List LabelPart)
    : escapes (parts ++ others) = escapes parts + escapes others := by
  simp only [escapes, List.count_append]
  omega

theorem escapes_chars (text : Text)
    : escapes (text.map .char) = 2 * text.count '\\' + text.count '\n' := by
  have hinj : Function.Injective LabelPart.char := by
    intro c d h
    injection h
  rw [escapes, List.count_map_of_injective text _ hinj '\\', List.count_map_of_injective text _ hinj '\n']

theorem escapes_escaped_le {c : Char} (hline : c ≠ '\n')
    : escapes [(QuotedChar.escaped c).part] ≤ 1 + if c = '\\' then 1 else 0 := by
  simp only [QuotedChar.part]
  split
  . exact Nat.le_add_right 1 _
  . split
    . exact Nat.zero_le _
    . simp only [escapes, List.count_singleton]
      split <;> split <;> simp_all

theorem escapes_quotedChars_le (hlast : text.getLast? ≠ some '\\')
    : escapes ((quotedChars text).map QuotedChar.part) ≤ text.count '\\' + text.count '\n' := by
  fun_induction quotedChars text with
  | case1 text ih =>
    have hrest := ih (by cases text <;> simp_all)
    rw [List.count_cons, List.count_cons, List.count_cons, List.count_cons]
    omega
  | case2 c text hline ih =>
    have hrest := ih (by cases text <;> simp_all)
    have hone := escapes_escaped_le hline
    rw [List.map_cons, ← List.singleton_append, escapes_append]
    rw [List.count_cons, List.count_cons, List.count_cons, List.count_cons]
    simp only [beq_iff_eq, if_true]
    omega
  | case3 c text hline hother ih =>
    have hrest := ih (by cases text <;> simp_all)
    have hbackslash : c ≠ '\\' := by
      intro heq
      cases text with
      | nil => simp [heq] at hlast
      | cons d text => exact hother d text heq rfl
    have hone : escapes [(QuotedChar.plain c).part] = if c = '\n' then 1 else 0 := by
      simp [escapes, QuotedChar.part, List.count_singleton, hbackslash]
    rw [List.map_cons, ← List.singleton_append, escapes_append, hone]
    rw [List.count_cons, List.count_cons]
    simp only [beq_iff_eq, hbackslash, if_false]
    omega
  | case4 => exact Nat.le_refl _

def htmlDepth (depth : Nat) : Text → Option Nat
  | [] => some depth
  | c :: text =>
    if c = '<' then
      htmlDepth (depth + 1) text
    else if c = '>' then
      if depth = 0 then none else htmlDepth (depth - 1) text
    else
      htmlDepth depth text

theorem htmlDepth_append {depth depth' : Nat} (h : htmlDepth depth text = some depth')
    : htmlDepth depth (text ++ more) = htmlDepth depth' more := by
  fun_induction htmlDepth depth text <;> simp_all [htmlDepth]

theorem htmlDepth_of_not_mem (hopen : '<' ∉ text) (hclose : '>' ∉ text) (depth : Nat)
    : htmlDepth depth text = some depth := by
  induction text with
  | nil => rfl
  | cons c text ih =>
    rw [List.mem_cons, not_or] at hopen hclose
    rw [htmlDepth, if_neg (Ne.symm hopen.left), if_neg (Ne.symm hclose.left)]
    apply ih hopen.right hclose.right

theorem run_html {depth depth' : Nat} (h : htmlDepth depth text = some depth') (content : Text)
    : Transducer.run step (.html depth content) text = some (.html depth' (content ++ text), []) := by
  induction text generalizing depth content with
  | nil =>
    cases h
    simp
  | cons c text ih =>
    rw [htmlDepth] at h
    have hrest : ∀ {next : Nat}, htmlDepth next text = some depth' →
        step (.html depth content) c = some (.html next (content ++ [c]), []) →
        Transducer.run step (.html depth content) (c :: text)
          = some (.html depth' (content ++ c :: text), []) := by
      intro next hnext hstep
      have hrun := ih hnext (content ++ [c])
      rw [List.append_assoc] at hrun
      exact Transducer.run_cons hstep hrun
    split at h
    . next hopen => exact hrest h (by simp [step, hopen])
    . next hopen =>
      split at h
      . next hclose =>
        cases depth with
        | zero => cases h
        | succ depth => exact hrest h (by simp [step, hclose])
      . next hclose => exact hrest h (by simp [step, hopen, hclose])

end Pieces

section Cost

open LexState

def isSpecial (c : Char) : Bool :=
  c = '"' || c = '\\'

def specials (parts : List LabelPart) : Nat :=
  parts.countP fun part => match part with
    | .char c => isSpecial c
    | .name _ => false

def cost (chars : List QuotedChar) : Nat :=
  specials (chars.map QuotedChar.part)

def totalCost (tokens : List Token) : Nat :=
  (tokens.map fun token => cost token.chars).sum

/--
The backslashes with a quote or another backslash behind them, and with them the one that may stand
right before the text.
-/
def charge (pending : Bool) : Text → Nat
  | [] => 0
  | c :: text => (if pending && isSpecial c then 1 else 0) + charge (c = '\\') text

namespace LexState

def chars : LexState → List QuotedChar
  | .word name => name.map .plain
  | .numeral digits => digits.map .plain
  | .quoted value | .backslash value => value
  | _ => []

def afterBackslash : LexState → Bool
  | .backslash _ => true
  | _ => false

end LexState

variable {text more : Text} {tokens : List Token} {s s' : LexState} {c : Char}

theorem cost_append (xs ys : List QuotedChar) : cost (xs ++ ys) = cost xs + cost ys := by
  simp [cost, specials]

theorem cost_plain (c : Char) : cost [.plain c] = if isSpecial c then 1 else 0 := by
  simp [cost, specials, QuotedChar.part, List.countP_cons]

theorem cost_escaped_le (c : Char) : cost [.escaped c] ≤ if isSpecial c then 1 else 0 := by
  simp only [cost, specials, List.map_cons, List.map_nil, QuotedChar.part]
  split
  . simp [isSpecial]
  . split
    . simp
    . simp [List.countP_cons]

theorem specials_chars (text : Text)
    : specials (text.map .char) = text.count '"' + text.count '\\' := by
  induction text with
  | nil => rfl
  | cons c text ih =>
    have hone : (if isSpecial c then 1 else 0)
        = (if c = '"' then 1 else 0) + (if c = '\\' then 1 else 0) := by
      by_cases hquote : c = '"' <;> simp [isSpecial, hquote]
    simp only [specials, List.map_cons, List.countP_cons] at ih ⊢
    rw [ih, hone, List.count_cons, List.count_cons]
    simp only [beq_iff_eq]
    omega

theorem not_isSpecial_of_isNameChar (h : isNameChar c = true) : isSpecial c = false := by
  unfold isSpecial
  rw [Bool.or_eq_false_iff, decide_eq_false_iff_not, decide_eq_false_iff_not]
  constructor
  . rintro rfl
    revert h
    decide
  . rintro rfl
    revert h
    decide

theorem not_isSpecial_of_isNumeralChar (h : isNumeralChar c = true) : isSpecial c = false := by
  unfold isSpecial
  rw [Bool.or_eq_false_iff, decide_eq_false_iff_not, decide_eq_false_iff_not]
  constructor
  . rintro rfl
    revert h
    decide
  . rintro rfl
    revert h
    decide

@[simp]
theorem totalCost_nil : totalCost [] = 0 :=
  rfl

@[simp]
theorem totalCost_cons (token : Token) (tokens : List Token)
    : totalCost (token :: tokens) = cost token.chars + totalCost tokens := by
  simp [totalCost]

theorem totalCost_append (tokens others : List Token)
    : totalCost (tokens ++ others) = totalCost tokens + totalCost others := by
  simp [totalCost]

structure CostsAtMost (n : Nat) (s s' : LexState) (out : List Token) (c : Char) : Prop where
  bound : cost s'.chars + totalCost out ≤ cost s.chars + n
  backslash : s'.afterBackslash = true → c = '\\'

theorem start_cost {out : List Token} (h : start c = some (s', out))
    : cost s'.chars = 0 ∧ totalCost out = 0 ∧ s'.afterBackslash = false := by
  unfold start at h
  split at h
  . cases h
    exact ⟨rfl, rfl, rfl⟩
  split at h
  . cases h
    exact ⟨rfl, rfl, rfl⟩
  split at h
  . next hname =>
    cases h
    refine ⟨?_, rfl, rfl⟩
    have hspecial : isSpecial c = false := by
      apply not_isSpecial_of_isNameChar
      simp [isNameChar, hname]
    simp [LexState.chars, cost_plain, hspecial]
  split at h
  . next hnumeral =>
    cases h
    refine ⟨?_, rfl, rfl⟩
    simp [LexState.chars, cost_plain, not_isSpecial_of_isNumeralChar hnumeral]
  split at h
  . cases h
    exact ⟨rfl, rfl, rfl⟩
  split at h
  . cases h
    exact ⟨rfl, rfl, rfl⟩
  split at h
  . cases h
    exact ⟨rfl, rfl, rfl⟩
  split at h
  . cases h
    exact ⟨rfl, rfl, rfl⟩
  split at h
  . cases h
    exact ⟨rfl, rfl, rfl⟩
  . cases h

theorem start_costsAtMost {out : List Token} (h : start c = some (s', out)) (n : Nat) (s : LexState)
    : CostsAtMost n s s' out c where
  bound := by
    have hcost := start_cost h
    omega
  backslash hbackslash := by
    rw [(start_cost h).right.right] at hbackslash
    cases hbackslash

theorem startAfter_costsAtMost {token : Token} {out : List Token}
    (h : startAfter token c = some (s', out)) (htoken : token.chars = s.chars)
    : CostsAtMost 0 s s' out c := by
  unfold startAfter at h
  rw [Option.map_eq_some_iff] at h
  rcases h with ⟨⟨t, rest⟩, hstart, heq⟩
  cases heq
  have hcost := start_cost hstart
  constructor
  . rw [totalCost_cons, htoken]
    omega
  . intro hbackslash
    rw [hcost.right.right] at hbackslash
    cases hbackslash

theorem quoted_costsAtMost {value : List QuotedChar} {added : List QuotedChar} {n : Nat}
    (hs : s.chars = value) (hadded : cost added ≤ n)
    : CostsAtMost n s (.quoted (value ++ added)) [] c where
  bound := by
    rw [hs, totalCost_nil]
    simp only [LexState.chars, cost_append]
    omega
  backslash hbackslash := by cases hbackslash

theorem silent_costsAtMost (hs' : s'.chars = []) (hbackslash : s'.afterBackslash = false) (n : Nat)
    : CostsAtMost n s s' [] c where
  bound := by
    rw [hs', totalCost_nil]
    exact Nat.zero_le _
  backslash h := by
    rw [hbackslash] at h
    cases h

theorem step_costsAtMost {out : List Token} (h : s.step c = some (s', out))
    : CostsAtMost (if s.afterBackslash && isSpecial c then 1 else 0) s s' out c := by
  cases s with
  | lineStart =>
    simp only [step] at h
    split at h
    . cases h
      apply silent_costsAtMost rfl rfl
    . apply start_costsAtMost h
  | between => apply start_costsAtMost h
  | word name =>
    simp only [step] at h
    split at h
    . next hname =>
      cases h
      constructor
      . simp [LexState.chars, cost_append, cost_plain, not_isSpecial_of_isNameChar hname]
      . intro hbackslash
        cases hbackslash
    . apply startAfter_costsAtMost h rfl
  | numeral digits =>
    simp only [step] at h
    split at h
    . next hnumeral =>
      cases h
      constructor
      . simp [LexState.chars, cost_append, cost_plain, not_isSpecial_of_isNumeralChar hnumeral]
      . intro hbackslash
        cases hbackslash
    . apply startAfter_costsAtMost h rfl
  | quoted value =>
    simp only [step] at h
    split at h
    . cases h
      constructor
      . simp [LexState.chars, Token.chars, cost, specials]
      . intro hbackslash
        cases hbackslash
    . next hquote =>
      split at h
      . next hslash =>
        cases h
        exact ⟨by simp [LexState.chars], fun _ => hslash⟩
      . next hslash =>
        cases h
        apply quoted_costsAtMost rfl
        rw [cost_plain, if_neg (by simp [isSpecial, hquote, hslash])]
        exact Nat.zero_le _
  | backslash value =>
    simp only [step] at h
    split at h
    . next hquote =>
      cases h
      apply quoted_costsAtMost rfl
      rw [cost_plain, hquote]
      exact Nat.le_refl _
    . split at h
      . cases h
        exact ⟨Nat.le_add_right _ _, fun hbackslash => by cases hbackslash⟩
      . cases h
        exact quoted_costsAtMost rfl (cost_escaped_le c)
  | html depth content =>
    simp only [step] at h
    split at h
    . cases h
      apply silent_costsAtMost rfl rfl
    . split at h
      . cases depth with
        | zero =>
          cases h
          exact ⟨Nat.zero_le _, fun hbackslash => by cases hbackslash⟩
        | succ depth =>
          cases h
          apply silent_costsAtMost rfl rfl
      . cases h
        apply silent_costsAtMost rfl rfl
  | minus =>
    simp only [step] at h
    split at h
    . cases h
      exact ⟨Nat.zero_le _, fun hbackslash => by cases hbackslash⟩
    . split at h
      . cases h
        exact ⟨Nat.zero_le _, fun hbackslash => by cases hbackslash⟩
      . split at h
        . next hnumeral =>
          cases h
          constructor
          . have hcost : cost ([.plain '-'] ++ [.plain c]) = 0 := by
              rw [cost_append, cost_plain, cost_plain, not_isSpecial_of_isNumeralChar hnumeral]
              rfl
            exact Nat.le_trans (Nat.le_of_eq hcost) (Nat.zero_le _)
          . intro hbackslash
            cases hbackslash
        . cases h
  | slash =>
    simp only [step] at h
    split at h
    . cases h
      apply silent_costsAtMost rfl rfl
    . split at h
      . cases h
        apply silent_costsAtMost rfl rfl
      . cases h
  | lineComment =>
    simp only [step] at h
    split at h <;> (cases h; apply silent_costsAtMost rfl rfl)
  | blockComment =>
    simp only [step] at h
    split at h <;> (cases h; apply silent_costsAtMost rfl rfl)
  | blockCommentStar =>
    simp only [step] at h
    split at h
    . cases h
      apply silent_costsAtMost rfl rfl
    . split at h <;> (cases h; apply silent_costsAtMost rfl rfl)

theorem run_cost {pending : Bool} {out : List Token} (hpending : s.afterBackslash = true → pending = true)
    (h : Transducer.run step s text = some (s', out))
    : cost s'.chars + totalCost out ≤ cost s.chars + charge pending text := by
  induction text generalizing s pending out with
  | nil =>
    cases h
    simp [charge]
  | cons c text ih =>
    rcases Transducer.run_cons_eq_some h with ⟨t, first, rest, hstep, hrest, heq⟩
    have hone := step_costsAtMost hstep
    have hpending' : t.afterBackslash = true → decide (c = '\\') = true := by
      intro ht
      simp [hone.backslash ht]
    have hmore := ih hpending' hrest
    have hle : (if s.afterBackslash && isSpecial c then 1 else 0)
        ≤ (if pending && isSpecial c then 1 else 0) := by
      cases hs : s.afterBackslash with
      | false => exact Nat.zero_le _
      | true =>
        have hset := hpending hs
        simp only [hset, Nat.le_refl]
    have hbound := hone.bound
    rw [heq, totalCost_append, charge]
    omega

theorem totalCost_lex_le (h : lex text = some tokens) : totalCost tokens ≤ charge false text := by
  unfold lex at h
  split at h
  . cases h
  . next s out hrun =>
    rw [Option.map_eq_some_iff] at h
    rcases h with ⟨last, hlast, heq⟩
    have hbound := run_cost (fun hs => hs) hrun
    have hcost : totalCost last = cost s.chars := by
      unfold finish at hlast
      split at hlast <;> cases hlast <;> simp [LexState.chars, Token.chars, cost, specials]
    rw [← heq, totalCost_append, hcost]
    have hstart : cost LexState.lineStart.chars = 0 := rfl
    have hpending : charge LexState.lineStart.afterBackslash text = charge false text := rfl
    omega

theorem totalCost_concatenated (tokens : List Token)
    : totalCost (concatenated tokens) = totalCost tokens := by
  fun_induction concatenated tokens with
  | case1 value tokens more rest heq ih =>
    rw [heq] at ih
    simp only [totalCost_cons, Token.chars, cost_append] at ih ⊢
    simp only [cost, specials, List.map_nil, List.countP_nil] at ih ⊢
    omega
  | case2 value tokens hnone ih => simp [ih]
  | case3 token tokens hnone ih => simp [ih]
  | case4 => rfl

theorem concatenated_of_not_mem (h : Token.symbol '+' ∉ tokens) : concatenated tokens = tokens := by
  fun_induction concatenated tokens with
  | case1 => simp at h
  | case2 => simp at h
  | case3 token tokens _ ih => rw [ih fun hmem => h (.tail _ hmem)]
  | case4 => rfl

theorem charge_le (pending : Bool) (text : Text)
    : charge pending text ≤ (if pending then 1 else 0) + charge false text := by
  cases text with
  | nil => exact Nat.zero_le _
  | cons c text =>
    cases pending with
    | false => simp
    | true =>
      simp only [charge, Bool.true_and, Bool.false_and, if_true]
      split <;> simp

theorem charge_append_le (pending : Bool) (text more : Text)
    : charge pending (text ++ more)
        ≤ (if pending then 1 else 0) + text.count '\\' + charge false more := by
  induction text generalizing pending with
  | nil => exact charge_le pending more
  | cons c text ih =>
    have hrest := ih (decide (c = '\\'))
    have hcount : (c :: text).count '\\' = text.count '\\' + if c = '\\' then 1 else 0 := by
      simp [List.count_cons]
    rw [List.cons_append, charge, hcount]
    have hone : (if pending && isSpecial c then 1 else 0) ≤ (if pending then 1 else 0) := by
      cases pending with
      | false => simp
      | true => simp only [Bool.true_and]; split <;> simp
    simp only [decide_eq_true_eq] at hrest
    omega

theorem charge_of_not_mem (h : '\\' ∉ text) (more : Text)
    : charge false (text ++ more) = charge false more := by
  induction text with
  | nil => rfl
  | cons c text ih =>
    rw [List.mem_cons, not_or] at h
    rw [List.cons_append, charge, decide_eq_false (Ne.symm h.left), ih h.right]
    simp

end Cost

end DotLanguage
