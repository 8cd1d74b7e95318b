import Idax.Rust.OutputContext

/-!
This module contains what holds of the two output builders along every run of calls. In C++ the text
stays when the tokens are taken, in Rust it goes with them.
-/

namespace Idax
namespace Rust

open Processor (OutputTokenKind OutputToken OutputContext OutputCall Ascii)

section Same

theorem rendered_eq (value : Int64) (radix : Int)
    : Processor.OutputContext.rendered value radix = OutputContext.rendered value radix := by
  unfold Processor.OutputContext.rendered OutputContext.rendered
  split
  . exact Processor.OutputContext.snprintf64_signed value
  . split
    . exact Processor.OutputContext.snprintf64_prefixed (by decide : 2 ≤ 8) (by decide : 0 < 22)
        (by decide) value.toUInt64 (show [(48 : UInt8)].length + 22 ≤ 63 by decide)
    . split
      . rw [Processor.OutputContext.binaryDigits_eq _ (by decide) (by decide),
          Nat.mod_eq_of_lt (UInt64.toNat_lt _)]
      . exact Processor.OutputContext.snprintf64_prefixed (by decide : 2 ≤ 16) (by decide : 0 < 16)
          (by decide) value.toUInt64 (show [(48 : UInt8), 120].length + 16 ≤ 63 by decide)

theorem address_eq (address : UInt64) (output : OutputContext)
    : output.address address = OutputContext.address address output := by
  have hfits := Processor.OutputContext.snprintf64_prefixed (by decide : 2 ≤ 16) (by decide : 0 < 16)
    (by decide) address (show [(48 : UInt8), 120].length + 16 ≤ 63 by decide)
  rw [List.cons_append, List.singleton_append] at hfits
  unfold Processor.OutputContext.address OutputContext.address
  rw [hfits]
  rfl

def RustOnlySpace (ch : Ascii) : Prop :=
  ch.val = 11 ∨ ch.val = 12

def cppKind (ch : UInt8) : OutputTokenKind :=
  if ch = 32 ∨ ch = 9 ∨ ch = 10 ∨ ch = 13 then
    .whitespace
  else if ch = 44 ∨ ch = 58 ∨ ch = 59 ∨ ch = 40 ∨ ch = 41 ∨ ch = 91 ∨ ch = 93 ∨ ch = 123 ∨ ch = 125 then
    .punctuation
  else
    .plainText

def rustKind (ch : UInt8) : OutputTokenKind :=
  if ch = 32 || (9 ≤ ch && ch ≤ 13) then
    .whitespace
  else if ch ∈ ([44, 58, 59, 40, 41, 91, 93, 123, 125] : List UInt8) then
    .punctuation
  else
    .plainText

theorem kinds_eq_iff (ch : Ascii) : cppKind ch.val = rustKind ch.val ↔ ¬ RustOnlySpace ch := by
  have hall : ∀ n : Fin 128, cppKind (.ofNat n) = rustKind (.ofNat n)
      ↔ ¬ (UInt8.ofNat n = 11 ∨ UInt8.ofNat n = 12) := by
    decide
  have hch := hall ⟨ch.val.toNat, ch.property⟩
  rw [UInt8.ofNat_toNat] at hch
  exact hch

theorem token_inj {kind kind' : OutputTokenKind} {text : List UInt8} (hne : text ≠ [])
    (output : OutputContext)
    : OutputContext.token kind text output = OutputContext.token kind' text output ↔ kind = kind' := by
  have hempty : text.isEmpty = false := List.isEmpty_eq_false_iff.mpr hne
  unfold OutputContext.token
  rw [hempty]
  simp

theorem character_eq (ch : UInt8) (output : OutputContext)
    : output.character ch = OutputContext.token (cppKind ch) [ch] output := by
  unfold Processor.OutputContext.character cppKind
  split
  . rfl
  . split <;> rfl

theorem character_eq_iff (ch : Ascii) (output : OutputContext)
    : output.character ch = OutputContext.character ch output ↔ ¬ RustOnlySpace ch := by
  have hrust : OutputContext.character ch output
      = OutputContext.token (rustKind ch.val) [ch.val] output := by
    unfold OutputContext.character OutputContext.isWhitespace rustKind
    split
    . rfl
    . split <;> rfl
  rw [character_eq, hrust, token_inj (List.cons_ne_nil _ _), kinds_eq_iff]

end Same

section Runs

structure Consistent (output : OutputContext) : Prop where
  buffer_eq : output.buffer = output.tokens.flatMap OutputToken.text
  text_ne : ∀ t ∈ output.tokens, t.text ≠ []

def LeavesNoText (output : OutputContext) : OutputCall → Prop
  | .takeTokens => output.buffer = []
  | _ => True

def SameCall (output : OutputContext) : OutputCall → Prop
  | .character ch => ¬ RustOnlySpace ch
  | call => LeavesNoText output call

theorem consistent_token {output : OutputContext} (h : Consistent output) (kind : OutputTokenKind)
    (text : List UInt8) : Consistent (OutputContext.token kind text output) := by
  unfold OutputContext.token
  split
  . exact h
  . next hne =>
    constructor
    case buffer_eq =>
      simp only [List.flatMap_append, List.flatMap_singleton]
      rw [h.buffer_eq]
    case text_ne =>
      intro t ht
      rcases List.mem_append.mp ht with hold | hnew
      . exact h.text_ne t hold
      . rw [List.mem_singleton.mp hnew]
        exact fun hempty => hne (List.isEmpty_iff.mpr hempty)

theorem consistent_empty : Consistent {} := by
  constructor <;> simp

theorem consistent_rust {output : OutputContext} (h : Consistent output) (call : OutputCall)
    : Consistent (OutputContext.call output call) := by
  cases call with
  | stringLiteral text quote =>
    have hopened := consistent_token h .punctuation [quote.val]
    have hwritten := consistent_token hopened .stringLiteral text
    exact consistent_token hwritten .punctuation [quote.val]
  | character ch =>
    unfold OutputContext.call OutputContext.character
    dsimp only
    split
    . exact consistent_token h _ _
    . split
      . exact consistent_token h _ _
      . exact consistent_token h _ _
  | address a => exact consistent_token h .address (48 :: 120 :: Numeral.encode 16 a.toNat)
  | space => exact consistent_token h .whitespace [32]
  | comma => exact consistent_token h .punctuation [44]
  | clear => exact consistent_empty
  | take => exact consistent_empty
  | takeTokens => exact consistent_empty
  | _ => exact consistent_token h _ _

theorem call_eq_iff (output : OutputContext) (call : OutputCall)
    : output.call call = OutputContext.call output call ↔ SameCall output call := by
  cases call with
  | immediate value radix =>
    refine iff_of_true ?_ trivial
    show output.token .immediate _ = OutputContext.token .immediate _ output
    rw [rendered_eq]
    rfl
  | address a => exact iff_of_true (address_eq a output) trivial
  | character ch =>
    show output.character ch = OutputContext.character ch output ↔ _
    exact character_eq_iff ch output
  | takeTokens =>
    show ({ output with tokens := [] } : OutputContext) = {} ↔ _
    simp [SameCall, LeavesNoText]
  | _ => exact iff_of_true rfl trivial

theorem consistent_cpp_iff {output : OutputContext} (h : Consistent output) (call : OutputCall)
    : Consistent (output.call call) ↔ LeavesNoText output call := by
  by_cases hsame : SameCall output call
  . rw [(call_eq_iff output call).mpr hsame]
    apply iff_of_true (consistent_rust h call)
    cases call with
    | takeTokens => exact hsame
    | _ => trivial
  . cases call with
    | character ch =>
      refine iff_of_true ?_ trivial
      show Consistent (output.character ch)
      rw [character_eq]
      exact consistent_token h _ _
    | takeTokens => exact iff_of_false (fun h' => hsame h'.buffer_eq) hsame
    | _ => exact absurd trivial hsame

/--
Literals read as the values they are written for. In every run of calls the text in Rust is that of the
tokens. In C++ it is so exactly when the tokens are never taken where there is text, and the builders are
the same all along exactly when, besides, no character is one that is white space in Rust only.
-/
theorem builders_agree
    : (∀ value radix, ∃ n,
        Numeral.literal? (Processor.OutputContext.rendered value radix) = some n ∧ Int64.ofInt n = value)
      ∧ (∀ calls, Machine.Always OutputContext.call Consistent {} calls)
      ∧ (∀ calls, Machine.Always Processor.OutputContext.call Consistent {} calls
        ↔ Machine.Guarded Processor.OutputContext.call LeavesNoText {} calls)
      ∧ ∀ calls,
        Machine.Always (fun (b : OutputContext × OutputContext) call =>
            (b.1.call call, OutputContext.call b.2 call))
          (fun b => b.1 = b.2) ({}, {}) calls
        ↔ Machine.Guarded (fun (b : OutputContext × OutputContext) call =>
            (b.1.call call, OutputContext.call b.2 call))
          (fun b call => SameCall b.1 call) ({}, {}) calls := by
  refine ⟨Processor.OutputContext.literal?_rendered, ?_, ?_, ?_⟩
  . intro calls
    rw [Machine.always_iff_guarded (G := fun _ _ => True)]
    . exact Machine.guarded_of_forall (fun _ _ => trivial) _ calls
    . exact fun output call h => iff_of_true (consistent_rust h call) trivial
    . exact consistent_empty
  . exact Machine.always_iff_guarded (fun output call h => consistent_cpp_iff h call) consistent_empty
  . apply Machine.always_iff_guarded
    . rintro ⟨cpp, rust⟩ call heq
      dsimp only at heq ⊢
      rw [← heq]
      exact call_eq_iff cpp call
    . rfl

end Runs

end Rust
end Idax
