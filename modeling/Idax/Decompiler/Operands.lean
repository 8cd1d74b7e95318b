import Idax.Decompiler.Ctree

/-!
This module contains expressions as trees, and the question whether the views of a stored tree know how
many operands an operator has. They look at the words of the storage for it, and not at the operator.
-/

namespace Idax
namespace Decompiler

inductive OperatorClass where
  | leaf
  | unary
  | binary
  | call
  | member
  | ternary
  deriving DecidableEq, Repr

def ItemType.operatorClass : ItemType → OperatorClass
  | .exprEmpty => .leaf
  | .exprNumber => .leaf
  | .exprFloatNumber => .leaf
  | .exprString => .leaf
  | .exprObject => .leaf
  | .exprVariable => .leaf
  | .exprInsn => .leaf
  | .exprHelper => .leaf
  | .exprType => .leaf
  | .exprFloatNeg => .unary
  | .exprNeg => .unary
  | .exprCast => .unary
  | .exprLogicalNot => .unary
  | .exprBitNot => .unary
  | .exprDeref => .unary
  | .exprRef => .unary
  | .exprPostInc => .unary
  | .exprPostDec => .unary
  | .exprPreInc => .unary
  | .exprPreDec => .unary
  | .exprSizeof => .unary
  | .exprCall => .call
  | .exprMemberRef => .member
  | .exprMemberPtr => .member
  | .exprTernary => .ternary
  | _ => .binary

abbrev Operator (operatorClass : OperatorClass) :=
  { op : ItemType // op.operatorClass = operatorClass }

inductive Leaf where
  | empty
  | type
  | number (n : Word)
  | floatNumber (fpc : Word)
  | string (ptr : Word)
  | helper (ptr : Word)
  | insn (ptr : Word)
  | object (objEa : Word) (refwidth : BitVec 32)
  | var (mba : Word) (idx : BitVec 32) (refwidth : BitVec 32)
  deriving DecidableEq, Repr

namespace Leaf

def op : Leaf → ItemType
  | .empty => .exprEmpty
  | .type => .exprType
  | .number _ => .exprNumber
  | .floatNumber _ => .exprFloatNumber
  | .string _ => .exprString
  | .helper _ => .exprHelper
  | .insn _ => .exprInsn
  | .object _ _ => .exprObject
  | .var _ _ _ => .exprVariable

/--
The part of the payload that shares its storage with the first operand.
-/
def firstWord : Leaf → Word
  | .empty => 0
  | .type => 0
  | .number n => n
  | .floatNumber fpc => fpc
  | .string ptr => ptr
  | .helper ptr => ptr
  | .insn ptr => ptr
  | .object objEa _ => objEa
  | .var mba _ _ => mba

def Stored (e : CExpr) : Leaf → Prop
  | .object objEa refwidth => e.x = objEa ∧ e.y = 0 ∧ e.z.setWidth 32 = refwidth
  | .var mba idx refwidth => e.x = mba ∧ e.y.setWidth 32 = idx ∧ e.z.setWidth 32 = refwidth
  | l => e.x = l.firstWord ∧ e.y = 0 ∧ e.z = 0

theorem Stored.x_eq {e : CExpr} {l : Leaf} (h : l.Stored e) : e.x = l.firstWord := by
  cases l <;> exact h.left

theorem op_ne_ternary (l : Leaf) : l.op ≠ .exprTernary := by
  cases l <;> simp [op]

end Leaf

inductive Expression where
  | leaf (leaf : Leaf)
  | unary (op : Operator .unary) (x : Expression)
  | binary (op : Operator .binary) (x y : Expression)
  | call (x : Expression) (a : Word)
  | member (op : Operator .member) (x : Expression) (m : BitVec 32)
  | ternary (x y z : Expression)

namespace Expression

def first? : Expression → Option Expression
  | .leaf _ => none
  | .unary _ x => some x
  | .binary _ x _ => some x
  | .call x _ => some x
  | .member _ x _ => some x
  | .ternary x _ _ => some x

def second? : Expression → Option Expression
  | .binary _ _ y => some y
  | .ternary _ y _ => some y
  | _ => none

def third? : Expression → Option Expression
  | .ternary _ _ z => some z
  | _ => none

def operandCount : Expression → Int
  | .leaf _ => 0
  | .unary _ _ => 1
  | .binary _ _ _ => 2
  | .call _ _ => 2
  | .member _ _ _ => 2
  | .ternary _ _ _ => 3

variable (memory : Memory)

/--
The expression is stored at `p`. Slots that an operator does not use are null; a dereference and a
member of a pointer keep the width of the access in the last one.
-/
def Stored : Expression → (p : Word) → Prop
  | .leaf l, p => p ≠ 0 ∧ (memory p).op = l.op ∧ l.Stored (memory p)
  | .unary op x, p =>
    p ≠ 0 ∧ (memory p).op = op ∧ Stored x (memory p).x ∧ (memory p).y = 0
      ∧ (op.val ≠ .exprDeref → (memory p).z = 0)
  | .binary op x y, p =>
    p ≠ 0 ∧ (memory p).op = op ∧ Stored x (memory p).x ∧ Stored y (memory p).y ∧ (memory p).z = 0
  | .call x a, p =>
    p ≠ 0 ∧ (memory p).op = .exprCall ∧ Stored x (memory p).x ∧ (memory p).y = a ∧ (memory p).z = 0
  | .member op x m, p =>
    p ≠ 0 ∧ (memory p).op = op ∧ Stored x (memory p).x ∧ (memory p).y.setWidth 32 = m
      ∧ (op.val ≠ .exprMemberPtr → (memory p).z = 0)
  | .ternary x y z, p =>
    p ≠ 0 ∧ (memory p).op = .exprTernary ∧ Stored x (memory p).x ∧ Stored y (memory p).y
      ∧ Stored z (memory p).z

variable {memory}

theorem Stored.ne_zero {p : Word} {e : Expression} (h : e.Stored memory p) : p ≠ 0 := by
  cases e <;> exact h.left

end Expression

section Arity

variable (memory : Memory)

def Yields (r : Result ExpressionView) : Option Expression → Prop
  | some e => ∃ view, r = .ok view ∧ e.Stored memory view.raw
  | none => ∃ error, r = .error error

structure RespectsArity (view : ExpressionView) (e : Expression) : Prop where
  left : Yields memory (view.left memory) e.first?
  right : Yields memory (view.right memory) e.second?
  third : Yields memory (view.third memory) e.third?
  operandCount : view.operandCount memory = e.operandCount

variable {memory} {view : ExpressionView}

theorem left_of_ne_zero (hraw : view.raw ≠ 0) (hx : (memory view.raw).x ≠ 0)
    : view.left memory = .ok (view.operand (memory view.raw) (memory view.raw).x) := by
  rw [ExpressionView.left, if_neg hraw]
  apply if_neg hx

theorem right_of_eq_zero (hraw : view.raw ≠ 0) (hnull : (memory view.raw).x = 0 ∨ (memory view.raw).y = 0)
    : view.right memory = .error (.validation "Expression has no right operand") := by
  rw [ExpressionView.right, if_neg hraw]
  apply if_pos hnull

theorem third_of_op_ne (hraw : view.raw ≠ 0) (hop : (memory view.raw).op ≠ .exprTernary)
    : view.third memory = .error (.validation "Expression has no third operand") := by
  rw [ExpressionView.third, if_neg hraw]
  apply if_pos (.inl hop)

theorem right_of_unguarded (hraw : view.raw ≠ 0) (hx : (memory view.raw).x ≠ 0)
    (hy : (memory view.raw).y ≠ 0) (hcall : (memory view.raw).op ≠ .exprCall)
    (href : (memory view.raw).op ≠ .exprMemberRef) (hptr : (memory view.raw).op ≠ .exprMemberPtr)
    : view.right memory = .ok (view.operand (memory view.raw) (memory view.raw).y) := by
  rw [ExpressionView.right, if_neg hraw]
  dsimp only
  rw [if_neg (not_or.mpr ⟨hx, hy⟩), if_neg hcall, if_neg (not_or.mpr ⟨href, hptr⟩)]

theorem operator_ne {operatorClass : OperatorClass} (op : Operator operatorClass) {item : ItemType}
    (h : item.operatorClass ≠ operatorClass) : op.val ≠ item := by
  intro heq
  rw [← heq] at h
  exact h op.property

theorem respectsArity_leaf {l : Leaf} (h : (Expression.leaf l).Stored memory view.raw)
    : RespectsArity memory view (.leaf l) ↔ l.firstWord = 0 := by
  rcases h with ⟨hraw, hop, hleaf⟩
  rw [← hleaf.x_eq]
  constructor
  . intro harity
    apply Classical.byContradiction
    intro hx
    rcases harity.left with ⟨error, herror⟩
    rw [left_of_ne_zero hraw hx] at herror
    cases herror
  . intro hx
    constructor
    case left =>
      rw [ExpressionView.left, if_neg hraw]
      exact ⟨_, if_pos hx⟩
    case right => exact ⟨_, right_of_eq_zero hraw (.inl hx)⟩
    case third =>
      refine ⟨_, third_of_op_ne hraw ?_⟩
      rw [hop]
      apply l.op_ne_ternary
    case operandCount =>
      rw [ExpressionView.operandCount, if_neg hraw]
      apply if_pos hx

theorem respectsArity_unary {op : Operator .unary} {x : Expression}
    (h : (Expression.unary op x).Stored memory view.raw) : RespectsArity memory view (.unary op x) := by
  rcases h with ⟨hraw, hop, hx, hy, _⟩
  have hternary : (memory view.raw).op ≠ .exprTernary := hop ▸ operator_ne op (by decide)
  have hcall : (memory view.raw).op ≠ .exprCall := hop ▸ operator_ne op (by decide)
  have href : (memory view.raw).op ≠ .exprMemberRef := hop ▸ operator_ne op (by decide)
  have hptr : (memory view.raw).op ≠ .exprMemberPtr := hop ▸ operator_ne op (by decide)
  constructor
  case left => exact ⟨_, left_of_ne_zero hraw hx.ne_zero, hx⟩
  case right => exact ⟨_, right_of_eq_zero hraw (.inr hy)⟩
  case third => exact ⟨_, third_of_op_ne hraw hternary⟩
  case operandCount =>
    rw [ExpressionView.operandCount, if_neg hraw]
    dsimp only
    rw [if_neg hx.ne_zero, if_neg hternary, if_neg (by simp [hy, hcall, href, hptr])]
    rfl

theorem respectsArity_binary {op : Operator .binary} {x y : Expression}
    (h : (Expression.binary op x y).Stored memory view.raw)
    : RespectsArity memory view (.binary op x y) := by
  rcases h with ⟨hraw, hop, hx, hy, _⟩
  have hternary : (memory view.raw).op ≠ .exprTernary := hop ▸ operator_ne op (by decide)
  have hcall : (memory view.raw).op ≠ .exprCall := hop ▸ operator_ne op (by decide)
  have href : (memory view.raw).op ≠ .exprMemberRef := hop ▸ operator_ne op (by decide)
  have hptr : (memory view.raw).op ≠ .exprMemberPtr := hop ▸ operator_ne op (by decide)
  constructor
  case left => exact ⟨_, left_of_ne_zero hraw hx.ne_zero, hx⟩
  case right =>
    exact ⟨_, right_of_unguarded hraw hx.ne_zero hy.ne_zero hcall href hptr, hy⟩
  case third => exact ⟨_, third_of_op_ne hraw hternary⟩
  case operandCount =>
    rw [ExpressionView.operandCount, if_neg hraw]
    dsimp only
    rw [if_neg hx.ne_zero, if_neg hternary, if_pos (.inl hy.ne_zero)]
    rfl

theorem right_of_guard (hraw : view.raw ≠ 0)
    (hop : (memory view.raw).op = .exprCall ∨ (memory view.raw).op = .exprMemberRef
      ∨ (memory view.raw).op = .exprMemberPtr)
    : ∃ error, view.right memory = .error error := by
  unfold ExpressionView.right
  rw [if_neg hraw]
  dsimp only
  split
  . exact ⟨_, rfl⟩
  . split
    . exact ⟨_, rfl⟩
    . next hcall =>
      rw [if_pos (hop.resolve_left hcall)]
      exact ⟨_, rfl⟩

theorem respectsArity_guarded {e x : Expression} (hraw : view.raw ≠ 0)
    (hop : (memory view.raw).op = .exprCall ∨ (memory view.raw).op = .exprMemberRef
      ∨ (memory view.raw).op = .exprMemberPtr)
    (hx : x.Stored memory (memory view.raw).x) (hfirst : e.first? = some x) (hsecond : e.second? = none)
    (hthird : e.third? = none) (hcount : e.operandCount = 2) : RespectsArity memory view e := by
  have hternary : (memory view.raw).op ≠ .exprTernary := by
    rcases hop with hop | hop | hop <;> simp [hop]
  constructor
  case left =>
    rw [hfirst]
    exact ⟨_, left_of_ne_zero hraw hx.ne_zero, hx⟩
  case right =>
    rw [hsecond]
    apply right_of_guard hraw hop
  case third =>
    rw [hthird]
    exact ⟨_, third_of_op_ne hraw hternary⟩
  case operandCount =>
    rw [hcount, ExpressionView.operandCount, if_neg hraw]
    dsimp only
    rw [if_neg hx.ne_zero, if_neg hternary, if_pos (.inr hop)]

theorem respectsArity_ternary {x y z : Expression}
    (h : (Expression.ternary x y z).Stored memory view.raw)
    : RespectsArity memory view (.ternary x y z) := by
  rcases h with ⟨hraw, hop, hx, hy, hz⟩
  constructor
  case left => exact ⟨_, left_of_ne_zero hraw hx.ne_zero, hx⟩
  case right =>
    have hcall : (memory view.raw).op ≠ .exprCall := by simp [hop]
    have href : (memory view.raw).op ≠ .exprMemberRef := by simp [hop]
    have hptr : (memory view.raw).op ≠ .exprMemberPtr := by simp [hop]
    exact ⟨_, right_of_unguarded hraw hx.ne_zero hy.ne_zero hcall href hptr, hy⟩
  case third =>
    refine ⟨view.operand (memory view.raw) (memory view.raw).z, ?_, hz⟩
    rw [ExpressionView.third, if_neg hraw]
    apply if_neg (not_or.mpr ⟨not_not.mpr hop, hz.ne_zero⟩)
  case operandCount =>
    rw [ExpressionView.operandCount, if_neg hraw]
    dsimp only
    rw [if_neg hx.ne_zero, if_pos hop]
    rfl

theorem member_op (op : Operator .member) : op.val = .exprMemberRef ∨ op.val = .exprMemberPtr := by
  rcases op with ⟨item, hitem⟩
  cases item
  case exprMemberRef => exact .inl rfl
  case exprMemberPtr => exact .inr rfl
  all_goals cases hitem

/--
A view respects the arity of the expression exactly when this is no leaf with a payload that passes
for a pointer to an operand.
-/
theorem respectsArity_iff {e : Expression} (h : e.Stored memory view.raw)
    : RespectsArity memory view e ↔ ∀ l, e = .leaf l → l.firstWord = 0 := by
  cases e with
  | leaf l =>
    rw [respectsArity_leaf h]
    constructor
    . intro hzero l' heq
      cases heq
      exact hzero
    . intro hall
      apply hall l rfl
  | unary op x => simp [respectsArity_unary h]
  | binary op x y => simp [respectsArity_binary h]
  | call x a =>
    have ⟨hraw, hop, hx, _⟩ := h
    have harity : RespectsArity memory view (.call x a) :=
      respectsArity_guarded hraw (.inl hop) hx rfl rfl rfl rfl
    simp [harity]
  | member op x m =>
    have ⟨hraw, hop, hx, _⟩ := h
    have harity : RespectsArity memory view (.member op x m) :=
      respectsArity_guarded hraw (.inr (hop ▸ member_op op)) hx rfl rfl rfl rfl
    simp [harity]
  | ternary x y z => simp [respectsArity_ternary h]

def twice (n : Word) : Memory := fun p =>
  if p = 1 then
    { op := .exprAdd, ea := 0x1000, x := 2, y := 2, z := 0 }
  else if p = 2 then
    { op := .exprNumber, ea := 0x1000, x := n, y := 0, z := 0 }
  else
    { op := .exprEmpty, ea := 0, x := 0, y := 0, z := 0 }

theorem stored_number (n : Word) : (Expression.leaf (.number n)).Stored (twice n) 2 := by
  refine ⟨by decide, rfl, rfl, rfl, rfl⟩

theorem respectsArity_iff_twice
    : RespectsArity (twice 0x5000) { raw := 1 }
          (.binary ⟨.exprAdd, rfl⟩ (.leaf (.number 0x5000)) (.leaf (.number 0x5000)))
        ↔ ∀ l, Expression.binary ⟨.exprAdd, rfl⟩ (.leaf (.number 0x5000)) (.leaf (.number 0x5000))
            = .leaf l → l.firstWord = 0 := by
  apply respectsArity_iff
  exact ⟨by decide, rfl, stored_number 0x5000, stored_number 0x5000, rfl⟩

theorem not_respectsArity_number
    : (Expression.leaf (.number 0x5000)).Stored (twice 0x5000) 2
        ∧ (ExpressionView.left (twice 0x5000) { raw := 2 }).toOption.map (·.raw) = some 0x5000
        ∧ ExpressionView.operandCount (twice 0x5000) { raw := 2 } = 1
        ∧ ¬RespectsArity (twice 0x5000) { raw := 2 } (.leaf (.number 0x5000)) := by
  refine ⟨stored_number 0x5000, rfl, rfl, ?_⟩
  intro h
  rcases h.left with ⟨error, herror⟩
  cases herror

end Arity

end Decompiler
end Idax
