import Mathlib.Logic.Basic

namespace Idax

inductive ErrorCategory where
  | validation
  | notFound
  | conflict
  | unsupported
  | sdkFailure
  | internal
  deriving DecidableEq, Repr

structure Error where
  category : ErrorCategory := .internal
  code : Int := 0
  message : String
  context : String
  deriving DecidableEq, Repr

namespace Error

def validation (message : String) (context : String := "") : Error :=
  { category := .validation, message, context }

def notFound (message : String) (context : String := "") : Error :=
  { category := .notFound, message, context }

def conflict (message : String) (context : String := "") : Error :=
  { category := .conflict, message, context }

def unsupported (message : String) (context : String := "") : Error :=
  { category := .unsupported, message, context }

def sdk (message : String) (context : String := "") : Error :=
  { category := .sdkFailure, message, context }

def internal (message : String) (context : String := "") : Error :=
  { category := .internal, message, context }

end Error

abbrev Result (α : Type u) := Except Error α

abbrev Status := Except Error Unit

def ok : Status := .ok ()

@[simp]
theorem ok_bind (a : α) (f : α → Result β) : (Except.ok a : Result α) >>= f = f a :=
  rfl

@[simp]
theorem error_bind (e : Error) (f : α → Result β)
    : (Except.error e : Result α) >>= f = .error e :=
  rfl

theorem bind_eq_ok_iff {x : Result α} {f : α → Result β} {b : β}
    : x >>= f = .ok b ↔ ∃ a, x = .ok a ∧ f a = .ok b := by
  cases x with
  | error e => simp
  | ok a => simp

end Idax
