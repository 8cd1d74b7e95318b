import Idax.Error
import Idax.Library.CString

/-!
This module contains the values that go into an appcall and come out of it, and which results of one call
can be the arguments of the next.
-/

namespace Idax
namespace Debugger

abbrev Text := List UInt8

inductive AppcallValueKind where
  | signedInteger
  | unsignedInteger
  | floatingPoint
  | string
  | address
  | boolean
  deriving DecidableEq, Repr

structure AppcallValue where
  kind : AppcallValueKind := .signedInteger
  signedValue : Int64 := 0
  unsignedValue : UInt64 := 0
  floatingValue : UInt64 := 0
  stringValue : Text := []
  addressValue : UInt64 := 0xFFFFFFFFFFFFFFFF
  booleanValue : Bool := false
  deriving DecidableEq, Repr

/--
An `idc_value_t` by its `vtype`, where `e` holds an `fpvalue_t`.
-/
inductive IdcValue (Fp : Type u) where
  | long (num : Int64)
  | int64 (i64 : Int64)
  | float (e : Fp)
  | str (qstr : Text)
  | pvoid (pvoid : UInt64)
  | other (vtype : Int) (object : Nat)
  deriving DecidableEq, Repr

/--
The conversions that the SDK and the C++ library make.
-/
structure Conversions (Fp : Type u) where
  fromDouble : UInt64 → Option Fp
  toDouble : Fp → Option UInt64
  /-- `idcv_num`, for a value that can be made a number. -/
  idcvNum : IdcValue Fp → Option (IdcValue Fp)
  doubleText : UInt64 → String

variable {Fp : Type u} (sdk : Conversions Fp)

def int64Max : UInt64 := 0x7FFFFFFFFFFFFFFF

def toIdcValue (out : Option (IdcValue Fp)) (value : AppcallValue) : Status × Option (IdcValue Fp) :=
  match out with
  | none => (.error (.internal "null idc value destination"), none)
  | some current =>
    match value.kind with
    | .signedInteger => (ok, some (.int64 value.signedValue))
    | .unsignedInteger =>
      if int64Max < value.unsignedValue then
        (.error (.validation "Unsigned appcall value exceeds IDC signed range"
          (toString value.unsignedValue)), some current)
      else
        (ok, some (.int64 value.unsignedValue.toInt64))
    | .floatingPoint =>
      match sdk.fromDouble value.floatingValue with
      | none =>
        (.error (.validation "Floating-point argument conversion failed"
          (sdk.doubleText value.floatingValue)), some current)
      | some fp => (ok, some (.float fp))
    | .string => (ok, some (.str (CString.read value.stringValue)))
    | .address =>
      if int64Max < value.addressValue then
        (.error (.validation "Address appcall value exceeds IDC signed range"
          (toString value.addressValue)), some current)
      else
        (ok, some (.int64 value.addressValue.toInt64))
    | .boolean => (ok, some (.long (if value.booleanValue then 1 else 0)))

def numericToOutput (pointerReturn : Bool) (signedNumber : Int64) : AppcallValue :=
  let converted : AppcallValue :=
    { signedValue := signedNumber, unsignedValue := signedNumber.toUInt64 }
  if pointerReturn then
    { converted with kind := .address, addressValue := converted.unsignedValue }
  else
    { converted with kind := .signedInteger }

def vtype : IdcValue Fp → Int
  | .long _ => 2
  | .float _ => 3
  | .str _ => 7
  | .pvoid _ => 8
  | .int64 _ => 9
  | .other vtype _ => vtype

def fromOther (value : IdcValue Fp) (pointerReturn : Bool) : Result AppcallValue :=
  match sdk.idcvNum value with
  | some (.long num) => .ok (numericToOutput pointerReturn num)
  | some (.int64 i64) => .ok (numericToOutput pointerReturn i64)
  | _ => .error (.unsupported "Unsupported appcall return value kind" (toString (vtype value)))

def fromIdcValue (value : IdcValue Fp) (pointerReturn : Bool) : Result AppcallValue :=
  match value with
  | .long num => .ok (numericToOutput pointerReturn num)
  | .int64 i64 => .ok (numericToOutput pointerReturn i64)
  | .float e =>
    match sdk.toDouble e with
    | none => .error (.unsupported "Unsupported floating-point return value format")
    | some d => .ok { kind := .floatingPoint, floatingValue := d }
  | .str qstr => .ok { kind := .string, stringValue := qstr }
  | .pvoid pvoid => .ok { kind := .address, addressValue := pvoid, unsignedValue := pvoid }
  | .other _ _ => fromOther sdk value pointerReturn

section Feedback

def number? : IdcValue Fp → Option UInt64
  | .long num => some num.toUInt64
  | .int64 i64 => some i64.toUInt64
  | .pvoid pvoid => some pvoid
  | _ => none

def string? : IdcValue Fp → Option Text
  | .str qstr => some qstr
  | _ => none

def YieldsAddress (value : IdcValue Fp) (pointerReturn : Bool) : Prop :=
  pointerReturn = true ∨ ∃ p, value = .pvoid p

def FedBack (out value : IdcValue Fp) (pointerReturn : Bool) : Prop :=
  ∃ a r, fromIdcValue sdk value pointerReturn = .ok a ∧ toIdcValue sdk (some out) a = (ok, some r)
    ∧ number? r = number? value ∧ string? r = string? value

def RangeRefused (out value : IdcValue Fp) (pointerReturn : Bool) (n : UInt64) : Prop :=
  ∃ a, fromIdcValue sdk value pointerReturn = .ok a
    ∧ toIdcValue sdk (some out) a
      = (.error (.validation "Address appcall value exceeds IDC signed range" (toString n)), some out)

section Lemmas

variable (out : IdcValue Fp)

theorem toIdcValue_address {a : AppcallValue} (hkind : a.kind = .address)
    : toIdcValue sdk (some out) a
        = if int64Max < a.addressValue then
            (.error (.validation "Address appcall value exceeds IDC signed range"
              (toString a.addressValue)), some out)
          else
            (ok, some (.int64 a.addressValue.toInt64)) := by
  simp only [toIdcValue, hkind]

theorem fromIdcValue_number {value : IdcValue Fp} {pointerReturn : Bool} {n : UInt64}
    (hnumber : number? value = some n)
    : (YieldsAddress value pointerReturn
          ∧ ∃ a, fromIdcValue sdk value pointerReturn = .ok a ∧ a.kind = .address ∧ a.addressValue = n)
      ∨ ¬YieldsAddress value pointerReturn
          ∧ fromIdcValue sdk value pointerReturn = .ok (numericToOutput false n.toInt64) := by
  have hsigned (num : Int64) (hvalue : ∀ p, value ≠ .pvoid p) (hnum : num.toUInt64 = n)
      (hfrom : fromIdcValue sdk value pointerReturn = .ok (numericToOutput pointerReturn num))
      : (YieldsAddress value pointerReturn
          ∧ ∃ a, fromIdcValue sdk value pointerReturn = .ok a ∧ a.kind = .address ∧ a.addressValue = n)
        ∨ ¬YieldsAddress value pointerReturn
          ∧ fromIdcValue sdk value pointerReturn = .ok (numericToOutput false n.toInt64) := by
    cases hreturn : pointerReturn with
    | true =>
      left
      rw [hreturn] at hfrom
      exact ⟨.inl rfl, _, hfrom, rfl, hnum⟩
    | false =>
      right
      rw [hreturn] at hfrom
      refine ⟨?_, ?_⟩
      . rintro (h | ⟨p, hp⟩)
        . cases h
        . exact hvalue p hp
      . rw [hfrom, ← hnum, Int64.toInt64_toUInt64]
  cases value with
  | long num =>
    apply hsigned num (by simp) _ rfl
    exact Option.some.inj hnumber
  | int64 i64 =>
    apply hsigned i64 (by simp) _ rfl
    exact Option.some.inj hnumber
  | pvoid p =>
    left
    exact ⟨.inr ⟨p, rfl⟩, _, rfl, rfl, Option.some.inj hnumber⟩
  | float _ => cases hnumber
  | str _ => cases hnumber
  | other _ _ => cases hnumber

end Lemmas

/--
An integer, a pointer or a string without a NUL is passed on unchanged. Only an address above the signed
range is refused.
-/
theorem appcall_feedback (out value : IdcValue Fp) (pointerReturn : Bool)
    : (∀ n, number? value = some n
          → (YieldsAddress value pointerReturn ∧ int64Max < n
              → RangeRefused sdk out value pointerReturn n)
            ∧ (¬(YieldsAddress value pointerReturn ∧ int64Max < n)
              → FedBack sdk out value pointerReturn))
        ∧ ∀ text, string? value = some text → 0 ∉ text → FedBack sdk out value pointerReturn := by
  constructor
  . intro n hnumber
    have hstring : string? value = none := by
      cases value with
      | str _ => cases hnumber
      | _ => rfl
    rcases fromIdcValue_number sdk hnumber with ⟨haddress, a, hfrom, hkind, rfl⟩ | ⟨hsigned, hfrom⟩
    . have hto := toIdcValue_address sdk out hkind
      constructor
      . intro ⟨_, hlarge⟩
        rw [if_pos hlarge] at hto
        exact ⟨a, hfrom, hto⟩
      . intro hsmall
        rw [if_neg (fun hlarge => hsmall ⟨haddress, hlarge⟩)] at hto
        refine ⟨a, _, hfrom, hto, ?_, hstring.symm⟩
        rw [hnumber, number?, UInt64.toUInt64_toInt64]
    . constructor
      . intro ⟨haddress, _⟩
        exact absurd haddress hsigned
      . intro _
        refine ⟨_, .int64 n.toInt64, hfrom, rfl, ?_, hstring.symm⟩
        rw [hnumber, number?, UInt64.toUInt64_toInt64]
  . intro text hstring hmem
    cases value with
    | str qstr =>
      injection hstring with hstring
      subst hstring
      refine ⟨_, .str qstr, rfl, ?_, rfl, rfl⟩
      rw [toIdcValue, CString.read_eq_self_iff.mpr hmem]
    | _ => cases hstring

def integerConversions : Conversions UInt64 where
  fromDouble _ := none
  toDouble _ := none
  idcvNum _ := none
  doubleText _ := ""

theorem appcall_feedback_negative
    : FedBack integerConversions (.long 0) (.int64 (-1)) false
        ∧ FedBack integerConversions (.long 0) (.str [0x41]) false :=
  ⟨((appcall_feedback integerConversions (.long 0) (.int64 (-1)) false).left _ rfl).right
      (by rintro ⟨h | ⟨_, h⟩, _⟩ <;> cases h),
    (appcall_feedback integerConversions (.long 0) (.str [0x41]) false).right _ rfl (by decide)⟩

theorem not_fedBack_upperHalf
    : ¬FedBack integerConversions (.long 0) (.int64 (-0x800000000000)) true := by
  rintro ⟨a, r, hfrom, hto, _⟩
  injection hfrom with hfrom
  subst hfrom
  have hrefused : (toIdcValue integerConversions (some (.long 0))
      (numericToOutput true (-0x800000000000))).fst ≠ ok := by
    decide
  exact hrefused (congrArg Prod.fst hto)

end Feedback

end Debugger
end Idax
