import Idax.Address
import Idax.Error

/-!
This module contains the storage of a ctree expression and the views of it: the operands of an operator
and the payload of a leaf are kept in the same words.
-/

namespace Idax
namespace Decompiler

inductive ItemType where
  | exprEmpty
  | exprComma
  | exprAssign
  | exprAssignBitOr
  | exprAssignXor
  | exprAssignBitAnd
  | exprAssignAdd
  | exprAssignSub
  | exprAssignMul
  | exprAssignShiftRightSigned
  | exprAssignShiftRightUnsigned
  | exprAssignShiftLeft
  | exprAssignDivSigned
  | exprAssignDivUnsigned
  | exprAssignModSigned
  | exprAssignModUnsigned
  | exprTernary
  | exprLogicalOr
  | exprLogicalAnd
  | exprBitOr
  | exprXor
  | exprBitAnd
  | exprEqual
  | exprNotEqual
  | exprSignedGE
  | exprUnsignedGE
  | exprSignedLE
  | exprUnsignedLE
  | exprSignedGT
  | exprUnsignedGT
  | exprSignedLT
  | exprUnsignedLT
  | exprShiftRightSigned
  | exprShiftRightUnsigned
  | exprShiftLeft
  | exprAdd
  | exprSub
  | exprMul
  | exprDivSigned
  | exprDivUnsigned
  | exprModSigned
  | exprModUnsigned
  | exprFloatAdd
  | exprFloatSub
  | exprFloatMul
  | exprFloatDiv
  | exprFloatNeg
  | exprNeg
  | exprCast
  | exprLogicalNot
  | exprBitNot
  | exprDeref
  | exprRef
  | exprPostInc
  | exprPostDec
  | exprPreInc
  | exprPreDec
  | exprCall
  | exprIndex
  | exprMemberRef
  | exprMemberPtr
  | exprNumber
  | exprFloatNumber
  | exprString
  | exprObject
  | exprVariable
  | exprInsn
  | exprSizeof
  | exprHelper
  | exprType
  deriving DecidableEq, Repr

abbrev Word := BitVec 64

/--
A `cexpr_t`. The word `x` is also the pointer of a number, a string, a helper or a statement, the
function of a variable and the address of an object. The word `y` is also the index of a variable,
the arguments of a call and the offset of a member.
-/
structure CExpr where
  op : ItemType
  ea : Word
  x : Word
  y : Word
  z : Word
  deriving DecidableEq, Repr

abbrev Memory := Word → CExpr

structure CtreeItemView where
  type : ItemType := .exprEmpty
  address : Word := BitVec.ofNat 64 badAddress
  isExpression : Bool := true
  deriving DecidableEq, Repr

structure ExpressionView where
  raw : Word := 0
  parents : Option (List CtreeItemView) := none
  rawParent : Word := 0
  deriving DecidableEq, Repr

def makeCtreeItemView (item : CExpr) : CtreeItemView :=
  { type := item.op, address := item.ea, isExpression := true }

def appendParent (parents : Option (List CtreeItemView)) (item : CExpr)
    : Option (List CtreeItemView) :=
  some (parents.getD [] ++ [makeCtreeItemView item])

namespace ExpressionView

variable (memory : Memory) (this : ExpressionView)

def operand (e : CExpr) (raw : Word) : ExpressionView :=
  { raw, parents := appendParent this.parents e, rawParent := this.raw }

def left : Result ExpressionView :=
  if this.raw = 0 then
    .error (.internal "null expression")
  else
    let e := memory this.raw
    if e.x = 0 then
      .error (.validation "Expression has no left operand (leaf expression)")
    else
      .ok (this.operand e e.x)

def right : Result ExpressionView :=
  if this.raw = 0 then
    .error (.internal "null expression")
  else
    let e := memory this.raw
    if e.x = 0 ∨ e.y = 0 then
      .error (.validation "Expression has no right operand")
    else if e.op = .exprCall then
      .error (.validation "Use call_argument() for call expressions")
    else if e.op = .exprMemberRef ∨ e.op = .exprMemberPtr then
      .error (.validation "Use member_offset() for member access expressions")
    else
      .ok (this.operand e e.y)

def operandCount : Int :=
  if this.raw = 0 then
    0
  else
    let e := memory this.raw
    if e.x = 0 then
      0
    else if e.op = .exprTernary then
      3
    else if e.y ≠ 0 ∨ e.op = .exprCall ∨ e.op = .exprMemberRef ∨ e.op = .exprMemberPtr then
      2
    else
      1

def third : Result ExpressionView :=
  if this.raw = 0 then
    .error (.internal "null expression")
  else
    let e := memory this.raw
    if e.op ≠ .exprTernary ∨ e.z = 0 then
      .error (.validation "Expression has no third operand")
    else
      .ok (this.operand e e.z)

end ExpressionView

end Decompiler
end Idax
