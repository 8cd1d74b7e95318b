import Mathlib.Algebra.Group.Nat.Defs

namespace Idax

abbrev Address := Nat

def badAddress : Address :=
  2 ^ 64 - 1

end Idax
