import Idax.Error

/-!
This module contains how an error crosses the C interface: the shim keeps the last one in a variable of
the thread, from where it is read.
-/

namespace Idax
namespace Shim

/--
An error by the bytes of its texts, which need not be UTF-8.
-/
structure ErrorBytes where
  category : ErrorCategory
  code : Int
  message : List UInt8
  context : List UInt8
  deriving DecidableEq, Repr

def textBytes (text : String) : List UInt8 :=
  text.toUTF8.toList

def ErrorBytes.of (err : Error) : ErrorBytes :=
  { category := err.category
    code := err.code
    message := textBytes err.message
    context := textBytes err.context }

structure ErrorState where
  category : Int := 0
  code : Int := 0
  message : List UInt8 := []
  deriving DecidableEq, Repr

/--
The constants `IDAX_ERROR_*`. That of no error is 0.
-/
def categoryNumber : ErrorCategory → Int
  | .validation => 1
  | .notFound => 2
  | .conflict => 3
  | .unsupported => 4
  | .sdkFailure => 5
  | .internal => 6

def clearError (_ : ErrorState) : ErrorState :=
  {}

def setError (err : ErrorBytes) : ErrorState :=
  { category := categoryNumber err.category
    code := err.code
    message :=
      if err.context.isEmpty then
        err.message
      else
        err.message ++ textBytes " [" ++ err.context ++ textBytes "]" }

def fail (err : ErrorBytes) : Int × ErrorState :=
  (-1, setError err)

/--
What a function of the shim returns and leaves in the error state, where the call it forwards had the
outcome `status`.
-/
def returnStatus (state : ErrorState) (status : Except ErrorBytes Unit) : Int × ErrorState :=
  let state := clearError state
  match status with
  | .ok _ => (0, state)
  | .error err => fail err

end Shim
end Idax
