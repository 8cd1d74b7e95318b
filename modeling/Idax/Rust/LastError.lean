import Idax.Rust.Text
import Idax.Shim.ErrorState

/-!
This module contains how the Rust binding reads the error that the shim keeps, and what comes of the
errors of a thread's calls.
-/

namespace Idax
namespace Rust

open Shim

def categoryOf (number : Int) : ErrorCategory :=
  if number = 0 then .validation
  else if number = 1 then .notFound
  else if number = 2 then .conflict
  else if number = 3 then .unsupported
  else if number = 4 then .sdkFailure
  else if number = 5 then .internal
  else .internal

def lastError (state : ErrorState) : Option ErrorBytes :=
  if state.category < 0 then
    none
  else
    some
      { category := categoryOf state.category
        code := state.code
        message := fromUtf8Lossy (CString.read state.message)
        context := [] }

def consumeLastError (state : ErrorState) (fallbackMsg : String) : ErrorBytes :=
  (lastError state).getD (.of (.sdk fallbackMsg))

def intToStatus (ret : Int) (state : ErrorState) (fallbackMsg : String) : Except ErrorBytes Unit :=
  if ret = 0 then .ok () else .error (consumeLastError state fallbackMsg)

/--
The category behind a category in the order in which they are declared, the last one behind itself.
-/
def nextCategory : ErrorCategory → ErrorCategory
  | .validation => .notFound
  | .notFound => .conflict
  | .conflict => .unsupported
  | .unsupported => .sdkFailure
  | .sdkFailure => .internal
  | .internal => .internal

def crossed (err : ErrorBytes) : ErrorBytes :=
  { category := nextCategory err.category
    code := err.code
    message := fromUtf8Lossy (CString.read (setError err).message)
    context := [] }

def crossedError (err : Error) : ErrorBytes :=
  crossed (.of err)

theorem mapError_crossedError (result : Result α)
    : result.mapError crossedError = (result.mapError ErrorBytes.of).mapError crossed := by
  cases result <;> rfl

theorem categoryOf_categoryNumber (category : ErrorCategory)
    : categoryOf (categoryNumber category) = nextCategory category := by
  cases category <;> rfl

theorem consumeLastError_setError (err : ErrorBytes) (fallbackMsg : String)
    : consumeLastError (setError err) fallbackMsg = crossed err := by
  have hnumber : ¬categoryNumber err.category < 0 := by
    cases err.category <;> decide
  simp only [consumeLastError, lastError, setError, if_neg hnumber, categoryOf_categoryNumber,
    Option.getD_some, crossed]

theorem nextCategory_eq_self_iff (category : ErrorCategory)
    : nextCategory category = category ↔ category = .internal := by
  cases category <;> decide

/--
The calls a thread makes through the binding, each with the outcome of what it forwards and the message
of the binding for it. The result is what the calls return in Rust.
-/
def callAll : ErrorState → List (Except ErrorBytes Unit × String) → List (Except ErrorBytes Unit)
  | _, [] => []
  | state, (status, fallbackMsg) :: calls =>
    let (ret, state) := returnStatus state status
    intToStatus ret state fallbackMsg :: callAll state calls

theorem intToStatus_returnStatus (state : ErrorState) (status : Except ErrorBytes Unit)
    (fallbackMsg : String)
    : intToStatus (returnStatus state status).1 (returnStatus state status).2 fallbackMsg
        = status.mapError crossed := by
  cases status with
  | ok _ => rfl
  | error err => exact congrArg Except.error (consumeLastError_setError err fallbackMsg)

/--
Whatever a thread did before, each of its calls returns what it forwards, up to the error. The category
of an error is the next one unless it is `internal`, and its texts, put together, arrive whole exactly if
they are UTF-8 without a NUL.
-/
theorem callAll_crosses (state : ErrorState) (calls : List (Except ErrorBytes Unit × String))
    : callAll state calls = calls.map (fun call => call.1.mapError crossed)
        ∧ ∀ err : ErrorBytes,
          ((crossed err).category = err.category ↔ err.category = .internal)
            ∧ (crossed err).code = err.code ∧ (crossed err).context = []
            ∧ ((crossed err).message = (setError err).message
              ↔ 0 ∉ (setError err).message ∧ Utf8 (setError err).message) := by
  refine ⟨?_, fun err => ⟨nextCategory_eq_self_iff err.category, rfl, rfl, lossy_read_eq_self_iff _⟩⟩
  induction calls generalizing state with
  | nil => rfl
  | cons call calls ih =>
    rcases call with ⟨status, fallbackMsg⟩
    unfold callAll
    rw [List.map_cons]
    dsimp only
    rw [intToStatus_returnStatus, ih]

end Rust
end Idax
